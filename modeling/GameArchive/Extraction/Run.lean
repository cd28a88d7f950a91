/-
Extracting entries into a folder.

Containers are opened one after the other, and the items of each are read,
transcoded and written. What is written may replace the file of the very
container that is being read, so each item is read from that file as it is
when its turn comes. A failure is noted and the extraction goes on, or, if it
is strict, ends with it. Before a container is opened, and before an item is
begun, it is seen whether somebody has asked to stop.
-/
import GameArchive.Extraction.Order
import GameArchive.Extraction.Session
import GameArchive.Extraction.Target

namespace GameArchive.Extraction

open Package (Container Entry Error NamedFile Options Provider)

/-- Opens the container of a name. -/
abbrev Source := FileSystem → String → Except Error Container

/-- The containers in a folder. -/
def folderSource (folder : PathName) (provider : Option Provider) : Source :=
  fun files name => Container.read files (folder.join (PathName.ofText name)) provider

/-- The containers of a list of names and bytes. -/
def listSource (provider : Option Provider) (known : List (String × Bytes)) : Source :=
  fun _ name =>
    match known.lookup name with
    | some file => Container.parse name provider file
    | none => .error (.file .missing)

/-- Where containers come from, where files go to, and what is done to
them. -/
structure Extractor where
  source : Source
  output : PathName
  options : Options

namespace Extractor

-- ============================================================== one item

/-- Where an entry goes, and what is written there. -/
def prepare (x : Extractor) (c : Container) (found : Except Error Entry) :
    Except Error (Location × Bytes) := do
  let entry ← found
  let data ← (c.readEntry entry).outcome
  let result ← (NamedFile.transcode x.options ⟨entry.path, data⟩).outcome
  let location ← target result.path
  return (location, result.data)

/-- Extracts an entry; the result is where it was written. -/
def extractEntry (x : Extractor) (files : FileSystem) (c : Container)
    (found : Except Error Entry) : Except Error Location × FileSystem :=
  match x.prepare (c.refresh files) found with
  | .error e => (.error e, files)
  | .ok (location, data) =>
    match files.save (x.output.below location) data with
    | (.error fault, files) => (.error (.file fault), files)
    | (.ok _, files) => (.ok location, files)

-- ============================================================= containers

/-- Extracts items of a container. -/
def runItems (x : Extractor) (watch : Watcher) (c : Container) :
    List Order.Item → Session → Session × Ending
  | [], s => (s, .finished)
  | item :: rest, s =>
    if s.status.stopRequested then (s, .cancelled)
    else
      let s := s.emit watch (.item item.path)
      match x.extractEntry s.files c item.entry with
      | (.ok location, files) =>
        x.runItems watch c rest (({ s with files := files }.wrote location).advance watch 1)
      | (.error cause, files) =>
        let s := { s with files := files }
        if x.options.strict then (s, .failed cause)
        else x.runItems watch c rest ((s.failed item.path cause).advance watch 1)

/-- Tells how many items there are when a whole container of `count`
entries has been opened and there were `total` items before. -/
def announce (watch : Watcher) (order : Order) (total count : Nat) (s : Session) :
    Session × Nat :=
  match order.wanted with
  | some _ => (s, total)
  | none => (s.emit watch (.range (total + count)), total + count)

/-- Carries out orders, when `total` items are known of. -/
def runOrders (x : Extractor) (watch : Watcher) :
    (total : Nat) → List Order → Session → Session × Ending
  | _, [], s => (s, .finished)
  | total, order :: rest, s =>
    if s.status.stopRequested then (s, .cancelled)
    else
      let s := s.emit watch (.loading order.container)
      match x.source s.files order.container with
      | .error cause =>
        if x.options.strict then (s, .failed cause)
        else
          x.runOrders watch total rest
            ((s.failed order.container cause).advance watch order.size)
      | .ok c =>
        let (s, total) := announce watch order total c.entries.length s
        match x.runItems watch c (order.items c) s with
        | (s, .finished) => x.runOrders watch total rest s
        | (s, ending) => (s, ending)

-- ============================================================ extractions

/-- Carries out orders from a status and a file system on, when `total`
items are known of. -/
def run (x : Extractor) (watch : Watcher) (total : Nat) (orders : List Order)
    (files : FileSystem) (status : Status) : Session × Ending :=
  x.runOrders watch total orders
    ({ files := files, status := status : Session }.emit watch (.range total))

/-- Extracts the requested entries. -/
def extract (x : Extractor) (watch : Watcher) (requests : List Request)
    (files : FileSystem) (status : Status) : Session × Ending :=
  x.run watch requests.length (Order.ofRequests requests) files status

/-- Extracts all entries of containers. -/
def extractContainers (x : Extractor) (watch : Watcher) (names : List String)
    (files : FileSystem) (status : Status) : Session × Ending :=
  x.run watch 0 (Order.ofContainers names) files status

end Extractor
end GameArchive.Extraction
