/-
What is to be extracted.

A request asks for one entry of one container. Requests are put together
into orders, one for each container, so that no container is opened twice;
an order keeps the order of its requests, and orders come by the names of
their containers.
-/
import GameArchive.Package.Container

namespace GameArchive.Extraction

open Package (Container Entry Error)

/-- A wish for an entry of a container. -/
structure Request where
  container : String
  path : String
deriving DecidableEq, Repr

/-- What is wanted of a container: some of its entries, or all. -/
structure Order where
  container : String
  wanted : Option (List String)
deriving DecidableEq, Repr

namespace Order

-- =============================================================== grouping

/-- A request put in front of the orders it precedes. -/
def insert (r : Request) : List Order → List Order
  | [] => [⟨r.container, some [r.path]⟩]
  | order :: rest =>
    if r.container = order.container then
      ⟨order.container, order.wanted.map (r.path :: ·)⟩ :: rest
    else if r.container < order.container then
      ⟨r.container, some [r.path]⟩ :: order :: rest
    else order :: insert r rest

/-- The orders of requests. -/
def ofRequests (requests : List Request) : List Order := requests.foldr insert []

/-- The orders of whole containers, each of them once. -/
def ofContainers (names : List String) : List Order :=
  names.eraseDups.map fun name => ⟨name, none⟩

-- ================================================================== items

/-- How many items are known to be wanted before the container is
opened. -/
def size (order : Order) : Nat :=
  match order.wanted with
  | some paths => paths.length
  | none => 0

/-- One item of an order: what it is called, and the entry if there is
one. -/
structure Item where
  path : String
  entry : Except Error Entry

/-- The item of a wanted path. -/
def itemOfPath (name : String) (c : Container) (path : String) : Item :=
  match c.find? path with
  | some entry => ⟨path, .ok entry⟩
  | none => ⟨path, .error (.entryNotFound name path)⟩

/-- The items of an order in an opened container. -/
def items (order : Order) (c : Container) : List Item :=
  match order.wanted with
  | some paths => paths.map (itemOfPath order.container c)
  | none => c.entries.map fun entry => ⟨entry.path, .ok entry⟩

end Order
end GameArchive.Extraction
