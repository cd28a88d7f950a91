/-
What becomes of requests.

Each container has an account: it could not be opened, which settles all that
was requested of it, or what was requested of it has been tried, one path
after the other. In the turns of an order there is exactly what its account
says, and so in those of all orders; what a session has noted is what its
turns say. It remains to count, and each request is in one order.

Main statement: `extract_accounted`.
-/
import GameArchive.Proofs.Extraction.Grouping
import GameArchive.Proofs.Extraction.Notes
import GameArchive.Proofs.Text.ByteOrder

namespace GameArchive.Extraction

open Bytes (Before)
open Package (Container Error)

-- ============================================================== accounts

/-- What became of what was requested of a container: it could not be
opened, or there is a result for each path. -/
structure Account where
  container : String
  fate : Except Error (List (String × Except Error Location))

namespace Account

/-- The paths that were tried, with what came of them. -/
def tried (a : Account) : List (String × Except Error Location) :=
  match a.fate with
  | .error _ => []
  | .ok results => results

/-- How all turns begin. -/
def begun (a : Account) : List Event :=
  .loading a.container :: a.tried.map fun result => .item result.1

/-- What was written. -/
def written (a : Account) : List Location :=
  a.tried.filterMap fun result => result.2.toOption

/-- The entries that failed. -/
def missed (a : Account) : List (String × Error) :=
  a.tried.filterMap fun
    | (path, .error cause) => some (path, cause)
    | (_, .ok _) => none

/-- The failure of the container itself. -/
def refusal (a : Account) : List (String × Error) :=
  match a.fate with
  | .error cause => [(a.container, cause)]
  | .ok _ => []

/-- The requests that the failure of the container settles. -/
def covered (requests : List Request) (a : Account) : List String :=
  match a.fate with
  | .error _ => pathsOf requests a.container
  | .ok _ => []

/-- An account is genuine if this is what comes of opening the container,
and of extracting each entry from it, with the files as they are at the
time. -/
def Genuine (x : Extractor) (a : Account) : Prop :=
  match a.fate with
  | .error cause => ∃ now, x.source now a.container = .error cause
  | .ok results => ∃ now c, x.source now a.container = .ok c
      ∧ ∀ result ∈ results, ∃ later,
        (x.extractEntry later c
          (Order.itemOfPath a.container c result.1).entry).1 = result.2

end Account

/-- In turns there is what accounts of orders say. -/
structure Settled (x : Extractor) (orders : List Order) (turns : List Turn)
    (accounts : List Account) : Prop where
  genuine : ∀ a ∈ accounts, a.Genuine x
  containers : accounts.map Account.container = orders.map Order.container
  answers : ∀ a ∈ accounts, ∀ results, a.fate = .ok results →
    (⟨a.container, some (results.map Prod.fst)⟩ : Order) ∈ orders
  begun : turns.map Turn.start = accounts.flatMap Account.begun
  written : turns.filterMap Turn.written? = accounts.flatMap Account.written
  failures : turns.filterMap Turn.note?
    = accounts.flatMap fun a => a.refusal ++ a.missed
  size : sizeOfTurns turns = Order.sizeOfOrders orders

namespace Settled

variable {x : Extractor}

theorem nil : Settled x [] [] [] := by
  constructor <;> simp [sizeOfTurns, Order.sizeOfOrders]

/-- What settles orders, and then what settles those after them, settles all of
them. -/
theorem append {orders orders' : List Order} {turns turns' : List Turn}
    {accounts accounts' : List Account}
    (h : Settled x orders turns accounts)
    (h' : Settled x orders' turns' accounts') :
    Settled x (orders ++ orders') (turns ++ turns')
      (accounts ++ accounts') where
  genuine := by
    intro a ha
    rcases List.mem_append.mp ha with ha | ha
    · exact h.genuine a ha
    · exact h'.genuine a ha
  containers := by
    rw [List.map_append, List.map_append, h.containers, h'.containers]
  answers := by
    intro a ha results hfate
    rcases List.mem_append.mp ha with ha | ha
    · exact List.mem_append_left _ (h.answers a ha results hfate)
    · exact List.mem_append_right _ (h'.answers a ha results hfate)
  begun := by
    rw [List.map_append, List.flatMap_append, h.begun, h'.begun]
  written := by
    rw [List.filterMap_append, List.flatMap_append, h.written, h'.written]
  failures := by
    rw [List.filterMap_append, List.flatMap_append, h.failures, h'.failures]
  size := by
    rw [sizeOfTurns_append, Order.sizeOfOrders_append, h.size, h'.size]

/-- A container that could not be opened. -/
theorem refused {order : Order} {files : FileSystem} {cause : Error}
    (hsource : x.source files order.container = .error cause) :
    Settled x [order] [.refused order.container order.size cause]
      [⟨order.container, .error cause⟩] := by
  constructor
  case genuine =>
      intro a ha
      rw [List.mem_singleton.mp ha]
      exact ⟨files, hsource⟩
  case answers =>
      intro a ha results hfate
      rw [List.mem_singleton.mp ha] at hfate
      cases hfate
  all_goals rfl

theorem sizeOfTurns_items
    (outcomes : List (String × Except Error Location × FileSystem)) :
    sizeOfTurns (outcomes.map fun o => Turn.item o.1 o.2.1 o.2.2)
      = outcomes.length := by
  induction outcomes with
  | nil => rfl
  | cons o rest ih =>
      rw [List.map_cons, sizeOfTurns, ih]
      exact Nat.add_comm 1 _

/-- What is read off the turns of items is told by their results. -/
theorem filterMap_items {α : Type} {f : Turn → Option α}
    {g : String × Except Error Location → Option α}
    (h : ∀ path result files, f (.item path result files) = g (path, result))
    (outcomes : List (String × Except Error Location × FileSystem)) :
    (outcomes.map fun o => Turn.item o.1 o.2.1 o.2.2).filterMap f
      = (outcomes.map fun o => (o.1, o.2.1)).filterMap g := by
  rw [List.filterMap_map, List.filterMap_map]
  exact congrArg (fun read => outcomes.filterMap read)
    (funext fun o => h o.1 o.2.1 o.2.2)

/-- A container that was opened, and the items that were wanted of it. -/
theorem opened {order : Order} {files : FileSystem} {c : Container}
    (hsource : x.source files order.container = .ok c) (total : Option Nat)
    {outcomes : List (String × Except Error Location × FileSystem)}
    (hwanted : order.wanted = some (outcomes.map Prod.fst))
    (hextracted : ∀ o ∈ outcomes, ∃ later, (x.extractEntry later c
      (Order.itemOfPath order.container c o.1).entry).1 = o.2.1) :
    Settled x [order]
      (.opened order.container total
        :: outcomes.map fun o => Turn.item o.1 o.2.1 o.2.2)
      [⟨order.container, .ok (outcomes.map fun o => (o.1, o.2.1))⟩] := by
  constructor
  case genuine =>
      intro a ha
      rw [List.mem_singleton.mp ha]
      refine ⟨files, c, hsource, fun result hresult => ?_⟩
      obtain ⟨o, ho, rfl⟩ := List.mem_map.mp hresult
      exact hextracted o ho
  case containers => rfl
  case answers =>
      intro a ha results hfate
      rw [List.mem_singleton.mp ha] at hfate ⊢
      cases hfate
      rw [List.map_map]
      exact List.mem_singleton.mpr (congrArg (Order.mk _) hwanted.symm)
  case begun => simp [Account.begun, Account.tried, Turn.start]
  case written =>
      refine (filterMap_items (fun path result files => ?_) outcomes).trans
        (List.append_nil _).symm
      cases result <;> rfl
  case failures =>
      refine (filterMap_items (fun path result files => ?_) outcomes).trans
        (List.append_nil _).symm
      cases result <;> rfl
  case size =>
      rw [sizeOfTurns, sizeOfTurns_items, Order.sizeOfOrders, Order.size,
        hwanted]
      simp [Turn.size, Order.sizeOfOrders]

end Settled

-- ============================================================= the turns

/-- An item that was asked for by a path goes by this path, whether or not the
container has it. -/
theorem path_itemOfPath (name : String) (c : Container) (path : String) :
    (Order.itemOfPath name c path).path = path := by
  unfold Order.itemOfPath
  cases c.find? path <;> rfl

/-- An item is called as its path was. -/
theorem items_path {order : Order} {paths : List String}
    (hwanted : order.wanted = some paths) (c : Container) :
    (order.items c).map Order.Item.path = paths := by
  unfold Order.items
  rw [hwanted, List.map_map]
  refine (List.map_congr_left fun path _ => ?_).trans (List.map_id _)
  exact path_itemOfPath ..

/-- What is wanted of a container is looked up there by its path. -/
theorem eq_itemOfPath {order : Order} {paths : List String}
    (hwanted : order.wanted = some paths) {c : Container} {item : Order.Item}
    (hitem : item ∈ order.items c) :
    item = Order.itemOfPath order.container c item.path := by
  unfold Order.items at hitem
  rw [hwanted] at hitem
  obtain ⟨path, -, rfl⟩ := List.mem_map.mp hitem
  rw [path_itemOfPath]

namespace Extractor

variable (x : Extractor)

/-- The items of a container are tried in their order, each once, and what comes
of each is what its extraction gives. -/
theorem itemTurns_eq_map (c : Container) (items : List Order.Item)
    (files : FileSystem) :
    ∃ outcomes : List (String × Except Error Location × FileSystem),
      x.itemTurns c files items
          = outcomes.map (fun o => Turn.item o.1 o.2.1 o.2.2)
        ∧ outcomes.map Prod.fst = items.map Order.Item.path
        ∧ ∀ o ∈ outcomes, ∃ item ∈ items, ∃ later, o.1 = item.path
          ∧ (x.extractEntry later c item.entry).1 = o.2.1 := by
  induction items generalizing files with
  | nil => exact ⟨[], rfl, rfl, fun o ho => nomatch ho⟩
  | cons item rest ih =>
      obtain ⟨outcomes, hturns, hpaths, hextracted⟩ :=
        ih (x.extractEntry files c item.entry).2
      refine ⟨(item.path, x.extractEntry files c item.entry) :: outcomes,
        ?_, ?_, ?_⟩
      · rw [itemTurns, hturns]
        rfl
      · rw [List.map_cons, hpaths]
        rfl
      · intro o ho
        rcases List.mem_cons.mp ho with rfl | hlater
        · exact ⟨item, List.mem_cons_self, files, rfl, rfl⟩
        · obtain ⟨wish, hwish, hfound⟩ := hextracted o hlater
          exact ⟨wish, List.mem_cons_of_mem item hwish, hfound⟩

/-- The account of an order. -/
theorem orderTurns_settled {order : Order} {paths : List String}
    (hwanted : order.wanted = some paths) (total : Nat)
    (files : FileSystem) :
    ∃ a, Settled x [order] (x.orderTurns total files order) [a] := by
  unfold orderTurns
  cases hsource : x.source files order.container with
  | error cause => exact ⟨_, .refused hsource⟩
  | ok c =>
      obtain ⟨outcomes, hturns, hpaths, hextracted⟩ :=
        x.itemTurns_eq_map c (order.items c) files
      rw [items_path hwanted] at hpaths
      have hlooked : ∀ o ∈ outcomes, ∃ later, (x.extractEntry later c
          (Order.itemOfPath order.container c o.1).entry).1 = o.2.1 := by
        intro o ho
        obtain ⟨item, hitem, later, hpath, hresult⟩ := hextracted o ho
        rw [hpath, ← eq_itemOfPath hwanted hitem]
        exact ⟨later, hresult⟩
      rw [← hpaths] at hwanted
      dsimp only
      rw [hturns]
      exact ⟨_, .opened hsource _ hwanted hlooked⟩

/-- Orders that name their items are settled by their turns: one account for
each order, in their order. -/
theorem turns_settled {orders : List Order}
    (hwanted : ∀ order ∈ orders, ∃ paths, order.wanted = some paths)
    (total : Nat) (files : FileSystem) :
    ∃ accounts, Settled x orders (x.turns total files orders) accounts := by
  induction orders generalizing total files with
  | nil => exact ⟨[], .nil⟩
  | cons order rest ih =>
      obtain ⟨paths, hpaths⟩ := hwanted order List.mem_cons_self
      obtain ⟨a, ha⟩ := x.orderTurns_settled hpaths total files
      obtain ⟨accounts, haccounts⟩ := ih
        (fun o ho => hwanted o (List.mem_cons_of_mem order ho)) _ _
      exact ⟨a :: accounts, ha.append haccounts⟩

end Extractor

-- ========================================================= the requests

/-- What a session has noted of requests, when `before` items were done with
in the beginning, and what became of each of them. -/
structure Accounted (x : Extractor) (requests : List Request) (before : Nat)
    (accounts : List Account) (s : Session) : Prop where
  genuine : ∀ a ∈ accounts, a.Genuine x
  once : (accounts.map Account.container).Nodup
  ascending : accounts.Pairwise fun first later =>
    Before (Bytes.ofString first.container) (Bytes.ofString later.container)
  named : ∀ name, name ∈ accounts.map Account.container
    ↔ name ∈ requests.map Request.container
  answers : ∀ a ∈ accounts, ∀ results, a.fate = .ok results →
    results.map Prod.fst = pathsOf requests a.container
  loads : loads s.events = accounts.map Account.container
  marks : marks s.events = accounts.flatMap Account.begun
  written : s.report.written = accounts.flatMap Account.written
  failures : s.report.failures
    = accounts.flatMap fun a => a.refusal ++ a.missed
  count : (accounts.flatMap Account.written).length
    + (accounts.flatMap Account.missed).length
    + (accounts.flatMap (Account.covered requests)).length = requests.length
  bounded : ∀ v ∈ values s.events, before ≤ v ∧ v ≤ before + requests.length
  rising : (values s.events).Pairwise (· ≤ ·)
  last : requests ≠ [] →
    (values s.events).getLast? = some (before + requests.length)
  completed : s.status.completed = before + requests.length

theorem loads_begun (accounts : List Account) :
    loads (accounts.flatMap Account.begun)
      = accounts.map Account.container := by
  have hitems (a : Account) :
      loads (a.tried.map fun result => .item result.1) = [] := by
    unfold loads
    rw [List.filterMap_map]
    exact List.filterMap_eq_nil_iff.mpr fun _ _ => rfl
  induction accounts with
  | nil => rfl
  | cons a rest ih =>
      rw [List.flatMap_cons, List.map_cons, ← ih, loads,
        List.filterMap_append]
      exact congrArg (a.container :: · ++ _) (hitems a)

/-- All that was tried was written, or failed. -/
theorem length_tried (a : Account) :
    a.written.length + a.missed.length = a.tried.length := by
  unfold Account.written Account.missed
  induction a.tried with
  | nil => rfl
  | cons result rest ih =>
      rcases result with ⟨path, cause | location⟩
      · exact congrArg Nat.succ ih
      · exact (Nat.add_right_comm ..).trans (congrArg Nat.succ ih)

/-- What was written, what was missed and what an unreadable container covers
are all that was asked for. -/
theorem count_accounts {requests : List Request} {accounts : List Account}
    (h : ∀ a ∈ accounts, ∀ results, a.fate = .ok results →
      results.map Prod.fst = pathsOf requests a.container) :
    (accounts.flatMap Account.written).length
        + (accounts.flatMap Account.missed).length
        + (accounts.flatMap (Account.covered requests)).length
      = ((accounts.map Account.container).flatMap
          (pathsOf requests)).length := by
  induction accounts with
  | nil => rfl
  | cons a rest ih =>
      have hrest := ih fun b hb => h b (List.mem_cons_of_mem a hb)
      have hhere : a.tried.length + (a.covered requests).length
          = (pathsOf requests a.container).length := by
        unfold Account.tried Account.covered
        cases hfate : a.fate with
        | error cause => exact Nat.zero_add _
        | ok results =>
            rw [← h a List.mem_cons_self results hfate]
            exact (List.length_map _).symm
      have htried := length_tried a
      simp only [List.flatMap_cons, List.map_cons, List.length_append]
      omega

/-- What the turns of all orders leave in a session is what their accounts
say. -/
theorem Settled.accounted {x : Extractor} {requests : List Request}
    {turns : List Turn} {accounts : List Account} {watch : Watcher}
    {total : Nat} {files : FileSystem} {status : Status}
    (h : Settled x (Order.ofRequests requests) turns accounts)
    (hrising : Rising status.completed (playAll watch turns
      (Session.beginning watch total files status))) :
    Accounted x requests status.completed accounts
      (playAll watch turns
        (Session.beginning watch total files status)) := by
  have hanswers : ∀ a ∈ accounts, ∀ results, a.fate = .ok results →
      results.map Prod.fst = pathsOf requests a.container := by
    intro a ha results hfate
    exact Option.some.inj
      (Order.wanted_of_mem (h.answers a ha results hfate))
  have hnames : (accounts.map Account.container).Pairwise (· < ·) := by
    rw [h.containers]
    exact List.pairwise_map.mpr Order.ascending_ofRequests
  have hmarks : marks (playAll watch turns
      (Session.beginning watch total files status)).events
      = accounts.flatMap Account.begun := by
    rw [marks_playAll, h.begun]
    rfl
  have hcompleted : (playAll watch turns (Session.beginning watch total
      files status)).status.completed
      = status.completed + requests.length := by
    rw [completed_playAll, h.size, Order.sizeOfOrders_ofRequests]
    exact congrArg (· + _) (Session.completed_emit ..)
  -- Of what the session has noted, only the counts are not in the accounts.
  constructor
  case genuine => exact h.genuine
  case once =>
      rw [h.containers]
      exact Order.nodup_containers
  case ascending => exact (List.pairwise_map.mp hnames).imp Text.before_of_lt
  case named =>
      intro name
      rw [h.containers]
      exact Order.container_mem_ofRequests
  case answers => exact hanswers
  case loads => rw [← loads_marks, hmarks, loads_begun]
  case marks => exact hmarks
  case written =>
      rw [written_playAll, h.written]
      rfl
  case failures =>
      rw [failures_playAll, h.failures]
      rfl
  case count =>
      rw [count_accounts hanswers, h.containers,
        Order.length_flatMap_pathsOf]
  case bounded =>
      intro v hv
      rw [← hcompleted]
      exact hrising.bounded v hv
  case rising => exact hrising.sorted
  case last =>
      intro hsome
      rcases hrising.last with hlast | ⟨-, hnone⟩
      · rw [hlast, hcompleted]
      · have hlength := List.length_pos_iff.mpr hsome
        omega
  case completed => exact hcompleted

/-- Requests that ask each container for the same, in the same order, are
treated the same. -/
theorem extract_congr (x : Extractor) (watch : Watcher)
    {requests requests' : List Request} (files : FileSystem)
    (status : Status)
    (h : ∀ name, pathsOf requests' name = pathsOf requests name) :
    x.extract watch requests' files status
      = x.extract watch requests files status := by
  have horders := Order.ofRequests_congr h
  have hlength : requests'.length = requests.length := by
    rw [← Order.sizeOfOrders_ofRequests, horders,
      Order.sizeOfOrders_ofRequests]
  unfold Extractor.extract
  rw [horders, hlength]

/-- If nobody asks to stop, a tolerant extraction accounts for each request
once, and tells how many it is done with as it goes. -/
theorem extract_accounted (x : Extractor) (watch : Watcher)
    (requests : List Request) (files : FileSystem) (status : Status)
    (htolerant : x.options.strict = false)
    (hcalm : (x.extract watch requests files
      status).1.status.stopRequested = false) :
    (x.extract watch requests files status).2 = .finished
      ∧ (∃ accounts, Accounted x requests status.completed accounts
          (x.extract watch requests files status).1)
      ∧ ∀ requests', (∀ name, pathsOf requests' name = pathsOf requests name) →
          x.extract watch requests' files status
            = x.extract watch requests files status := by
  have hwanted : ∀ order ∈ Order.ofRequests requests,
      ∃ paths, order.wanted = some paths :=
    fun order horder => ⟨_, Order.wanted_of_mem horder⟩
  obtain ⟨accounts, hsettled⟩ :=
    x.turns_settled hwanted requests.length files
  have hplayed : x.extract watch requests files status
      = (playAll watch
          (x.turns requests.length files (Order.ofRequests requests))
          (Session.beginning watch requests.length files status),
        .finished) := run_tolerant htolerant hcalm
  have hrising : Rising status.completed
      (x.extract watch requests files status).1 := rising_run
  refine ⟨?_, ⟨accounts, ?_⟩, fun requests' h => ?_⟩
  · rw [hplayed]
  · rw [hplayed] at hrising ⊢
    exact hsettled.accounted hrising
  · exact extract_congr x watch files status h

/-- Of three requests, one is written, one is not in its container and one has
no container; when the last two change places nothing else changes. -/
theorem extract_accounted_lonePack :
    ((lonePack.extract .silent threeRequests (.empty "home") {}).2 = .finished
      ∧ (∃ accounts, Accounted lonePack threeRequests 0 accounts
          (lonePack.extract .silent threeRequests (.empty "home") {}).1)
      ∧ lonePack.extract .silent
          [⟨"pack", "one"⟩, ⟨"stray", "one"⟩, ⟨"pack", "two"⟩]
          (.empty "home") {}
        = lonePack.extract .silent threeRequests (.empty "home") {})
      ∧ (lonePack.extract .silent threeRequests (.empty "home")
          {}).1.report
        = ⟨[["one"]], [("two", .entryNotFound "pack" "two"),
          ("stray", .file .missing)]⟩ := by
  refine ⟨?_, by decide +kernel⟩
  obtain ⟨hfinished, haccounts, hreordered⟩ :=
    extract_accounted lonePack .silent threeRequests (.empty "home") {} rfl
      (by decide +kernel)
  refine ⟨hfinished, haccounts, hreordered _ fun name => ?_⟩
  by_cases hpack : "pack" = name
  · subst hpack
    decide
  · by_cases hstray : "stray" = name <;>
      simp [pathsOf, threeRequests, hpack, hstray]

end GameArchive.Extraction
