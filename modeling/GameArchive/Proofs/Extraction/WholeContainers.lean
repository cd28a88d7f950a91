/-
Extracting a container entry by entry, and as a whole.

A container can be extracted by asking for each of its entries, or for all of
it. The first way looks every path up again, and the second does not; where
each path leads to its own entry, both have the same entries to extract. Two
runs are then compared turn by turn: turns are alike when they do the same,
whatever they are called and whatever is told of how many items there are,
and runs through turns that are alike stay alike.

Main statements: `play_alike`, `extract_whole`.
-/
import GameArchive.Proofs.Extraction.Grouping
import GameArchive.Proofs.Extraction.Writes
import GameArchive.Proofs.Package.Holding
import GameArchive.Proofs.Package.Lookup

namespace GameArchive.Extraction

open Package (Container Draft Entry Error Provider)

-- =================================================================== loads

/-- Nothing is opened in the turns of items. -/
theorem loads_play_itemTurns (x : Extractor) (watch : Watcher)
    (strict : Bool) (c : Container) (items : List Order.Item)
    (files : FileSystem) (s : Session) :
    loads (play watch strict (x.itemTurns c files items) s).1.events
      = loads s.events := by
  induction items generalizing files s with
  | nil => rfl
  | cons item rest ih =>
      rw [Extractor.itemTurns, play]
      split
      next => rfl
      next =>
        split
        next => exact (Turn.loads_begun ..).trans (List.append_nil _)
        next =>
          rw [ih, Turn.loads_played]
          exact List.append_nil _

/-- A run that nobody asks to stop opens the container of its order once. -/
theorem loads_run_silent (x : Extractor) (total : Nat) {order : Order}
    {files : FileSystem} {c : Container}
    (hsource : x.source files order.container = .ok c) {status : Status}
    (hcalm : status.stopRequested = false) :
    loads (x.run .silent total [order] files status).1.events
      = [order.container] := by
  have hgoes : (Session.beginning .silent total files
      status).status.stopRequested = false := hcalm
  rw [x.run_eq_play, Extractor.turns, Extractor.turns, List.append_nil,
    Extractor.orderTurns, hsource]
  dsimp only
  rw [play_opened, hgoes, if_neg Bool.false_ne_true, loads_play_itemTurns,
    Turn.loads_played]
  rfl

-- ============================================================= alike turns

/-- Turns that do the same, under any name that an item goes by. -/
inductive Turn.Alike : Turn → Turn → Prop
  | opened (container : String) (told told' : Option Nat) :
      Alike (.opened container told) (.opened container told')
  | item (path path' : String) (result : Except Error Location)
      (files : FileSystem) :
      Alike (.item path result files) (.item path' result files)

/-- Sessions that have done the same. -/
structure Session.Alike (s t : Session) : Prop where
  files : s.files = t.files
  written : s.report.written = t.report.written
  errors : s.report.failures.map Prod.snd = t.report.failures.map Prod.snd
  completed : s.status.completed = t.status.completed
  stopRequested : s.status.stopRequested = t.status.stopRequested
  loads : loads s.events = loads t.events
  itemsBegun : itemsBegun s.events = itemsBegun t.events

/-- Nobody asks to stop when nobody watches. -/
theorem Session.stopRequested_emit_silent (event : Event) (s : Session) :
    (s.emit .silent event).status.stopRequested = s.status.stopRequested := by
  cases event <;> rfl

namespace Turn

theorem stopRequested_played_silent (turn : Turn) (s : Session) :
    (turn.played .silent s).status.stopRequested
      = s.status.stopRequested := by
  have hbegun : (turn.begun .silent s).status.stopRequested
      = s.status.stopRequested :=
    s.stopRequested_emit_silent turn.start
  unfold played
  rcases turn with ⟨_, _ | _⟩ | _ | ⟨_, _ | _, _⟩
  · exact hbegun
  all_goals
    exact (Session.stopRequested_emit_silent ..).trans hbegun

namespace Alike

variable {a b : Turn} {s t : Session}

/-- Turns that are alike fail alike. -/
theorem failure?_eq (h : Alike a b) : a.failure? = b.failure? := by
  cases h with
  | opened => rfl
  | item _ _ result => cases result <;> rfl

/-- Turns that are alike lead from like sessions to like ones when they
begin. -/
theorem begun (h : Alike a b) (hs : s.Alike t) :
    (a.begun .silent s).Alike (b.begun .silent t) := by
  constructor
  case files =>
      show a.after s.files = b.after t.files
      rw [hs.files]
      cases h <;> rfl
  case written => exact hs.written
  case errors => exact hs.errors
  case completed =>
      rw [completed_begun, completed_begun]
      exact hs.completed
  case stopRequested =>
      exact (s.stopRequested_emit_silent a.start).trans
        (hs.stopRequested.trans (t.stopRequested_emit_silent b.start).symm)
  case loads =>
      rw [loads_begun, loads_begun, hs.loads]
      cases h <;> rfl
  case itemsBegun =>
      rw [itemsBegun_begun, itemsBegun_begun, hs.itemsBegun]
      cases h <;> rfl

theorem played (h : Alike a b) (hs : s.Alike t) :
    (a.played .silent s).Alike (b.played .silent t) := by
  constructor
  case files =>
      rw [files_played, files_played, hs.files]
      cases h <;> rfl
  case written =>
      rw [written_played, written_played, hs.written]
      cases h with
      | opened => rfl
      | item _ _ result => cases result <;> rfl
  case errors =>
      rw [failures_played, failures_played, List.map_append, List.map_append,
        hs.errors]
      cases h with
      | opened => rfl
      | item _ _ result => cases result <;> rfl
  case completed =>
      rw [completed_played, completed_played, hs.completed]
      cases h <;> rfl
  case stopRequested =>
      rw [stopRequested_played_silent, stopRequested_played_silent]
      exact hs.stopRequested
  case loads =>
      rw [loads_played, loads_played, hs.loads]
      cases h <;> rfl
  case itemsBegun =>
      rw [itemsBegun_played, itemsBegun_played, hs.itemsBegun]
      cases h <;> rfl

end Alike
end Turn

/-- Runs through turns that are alike do the same, and end the same way. -/
theorem play_alike (strict : Bool) {turns turns' : List Turn}
    (h : List.Forall₂ Turn.Alike turns turns') {s t : Session}
    (hs : s.Alike t) :
    (play .silent strict turns s).1.Alike (play .silent strict turns' t).1
      ∧ (play .silent strict turns s).2
        = (play .silent strict turns' t).2 := by
  induction h generalizing s t with
  | nil => exact ⟨hs, rfl⟩
  | cons hfirst hrest ih =>
      rw [play, play, hfirst.failure?_eq, hs.stopRequested]
      split
      next => exact ⟨hs, rfl⟩
      next =>
        split
        next => exact ⟨hfirst.begun hs, rfl⟩
        next => exact ih (hfirst.played hs)

/-- Items for the same entries have turns that are alike. -/
theorem itemTurns_alike (x : Extractor) (c : Container)
    {items items' : List Order.Item}
    (h : items.map Order.Item.entry = items'.map Order.Item.entry)
    (files : FileSystem) :
    List.Forall₂ Turn.Alike (x.itemTurns c files items)
      (x.itemTurns c files items') := by
  induction items generalizing items' files with
  | nil =>
      rw [List.map_eq_nil_iff.mp h.symm]
      exact .nil
  | cons item rest ih =>
      obtain ⟨item', rest', rfl, hentry, hrest⟩ :=
        List.map_eq_cons_iff.mp h.symm
      rw [Extractor.itemTurns, Extractor.itemTurns, hentry]
      exact .cons (.item ..) (ih hrest.symm _)

-- ======================================================== whole containers

/-- Requests of one container make one order. -/
theorem Order.ofRequests_of_forall {name : String} {requests : List Request}
    (hsome : requests ≠ []) (h : ∀ r ∈ requests, r.container = name) :
    ofRequests requests = [⟨name, some (requests.map Request.path)⟩] := by
  induction requests with
  | nil => exact absurd rfl hsome
  | cons r rest ih =>
      obtain ⟨hfirst, hrest⟩ := List.forall_mem_cons.mp h
      show insert r (ofRequests rest) = _
      cases rest with
      | nil =>
          rw [← hfirst]
          rfl
      | cons r' rest =>
          rw [ih (List.cons_ne_nil r' rest) hrest, insert, if_pos hfirst]
          rfl

/-- Two extractions from the container of this name, of wanted paths and of
all that it has, are one and the same, except for what items are called and
how many are said to be known of. -/
structure SameWork (x : Extractor) (name : String) (wanted : List String)
    (files : FileSystem) (requested whole : Session × Ending) : Prop where
  writes : x.writes ⟨name, some wanted⟩ files requested.1
    = x.writes ⟨name, none⟩ files whole.1
  files_requested : requested.1.files
    = carryOut files (x.writes ⟨name, some wanted⟩ files requested.1)
  files_whole : whole.1.files
    = carryOut files (x.writes ⟨name, none⟩ files whole.1)
  written : requested.1.report.written = whole.1.report.written
  errors : requested.1.report.failures.map Prod.snd
    = whole.1.report.failures.map Prod.snd
  ending : requested.2 = whole.2
  completed : requested.1.status.completed = whole.1.status.completed
  loads_requested : loads requested.1.events = [name]
  loads_whole : loads whole.1.events = [name]

section

variable {name : String} {requests : List Request} {entries : List Entry}

/-- One request for each entry of a container, under any spelling of its
path. -/
def AskForEach (name : String) (requests : List Request)
    (entries : List Entry) : Prop :=
  List.Forall₂ (fun r e => r.container = name ∧ e.SpelledBy r.path) requests
    entries

theorem AskForEach.ne_nil (h : AskForEach name requests entries)
    (hsome : entries ≠ []) : requests ≠ [] := by
  rintro rfl
  cases h
  exact hsome rfl

/-- All of it is asked of one container. -/
theorem AskForEach.container_eq (h : AskForEach name requests entries) :
    ∀ r ∈ requests, r.container = name := by
  induction h with
  | nil => exact fun r hr => nomatch hr
  | cons hfirst _ ih => exact List.forall_mem_cons.mpr ⟨hfirst.1, ih⟩

/-- Where every spelling leads to its entry, the entries are asked for. -/
theorem AskForEach.entries_eq (h : AskForEach name requests entries)
    {c : Container} (hfind : ∀ e ∈ entries, ∀ path, e.SpelledBy path →
      c.find? path = some e) :
    requests.map (fun r => (Order.itemOfPath name c r.path).entry)
      = entries.map .ok := by
  induction h with
  | nil => rfl
  | cons hfirst _ ih =>
      obtain ⟨hhere, hlater⟩ := List.forall_mem_cons.mp hfind
      rw [List.map_cons, List.map_cons, ih hlater, Order.itemOfPath,
        hhere _ hfirst.2]

/-- Paths that lead back to the entries make the same items as all of the
container. -/
theorem AskForEach.items_eq {c : Container}
    (hdistinct : c.entries.Pairwise fun e f => e.looseName ≠ f.looseName)
    (heach : AskForEach name requests c.entries) :
    ((Order.mk name (some (requests.map Request.path))).items c).map
        Order.Item.entry
      = ((Order.mk name none).items c).map Order.Item.entry := by
  have hfound := heach.entries_eq fun e he path =>
    Container.find?_of_spelledBy hdistinct he
  simpa [Order.items, Function.comp_def] using hfound

end

/-- Orders for the same entries of a container have turns that are alike. -/
theorem turns_alike (x : Extractor) {name : String} {files : FileSystem}
    {c : Container} (hsource : x.source files name = .ok c)
    {wanted wanted' : Option (List String)}
    (hentries : ((Order.mk name wanted).items c).map Order.Item.entry
      = ((Order.mk name wanted').items c).map Order.Item.entry)
    (total total' : Nat) :
    List.Forall₂ Turn.Alike (x.turns total files [⟨name, wanted⟩])
      (x.turns total' files [⟨name, wanted'⟩]) := by
  rw [Extractor.turns, Extractor.turns, Extractor.turns, Extractor.turns,
    List.append_nil, List.append_nil, Extractor.orderTurns,
    Extractor.orderTurns]
  dsimp only
  rw [hsource]
  exact .cons (.opened ..) (itemTurns_alike x c hentries files)

/-- Asking for each entry of a container, in the order of its table, does the
same work as extracting all of it, if no two of its paths have the same
form. -/
theorem extract_whole (x : Extractor) {name : String} {files : FileSystem}
    {c : Container} (hsource : x.source files name = .ok c)
    (hsome : c.entries ≠ [])
    (hdistinct : c.entries.Pairwise fun e f => e.looseName ≠ f.looseName)
    {requests : List Request} (heach : AskForEach name requests c.entries)
    {status : Status} (hcalm : status.stopRequested = false) :
    SameWork x name (requests.map Request.path) files
      (x.extract .silent requests files status)
      (x.extractContainers .silent [name] files status) := by
  have hrequested : x.extract .silent requests files status
      = x.run .silent requests.length
          [⟨name, some (requests.map Request.path)⟩] files status := by
    rw [Extractor.extract, Order.ofRequests_of_forall (heach.ne_nil hsome)
      heach.container_eq]
  have hwhole : x.extractContainers .silent [name] files status
      = x.run .silent 0 [⟨name, none⟩] files status := rfl
  -- Both runs have one order, the items of which are the same entries under
  -- other names.
  have hentries := heach.items_eq hdistinct
  have hbegin : (Session.beginning .silent requests.length files
      status).Alike (Session.beginning .silent 0 files status) :=
    ⟨rfl, rfl, rfl, rfl, rfl, rfl, rfl⟩
  have hboth := play_alike x.options.strict
    (turns_alike x hsource hentries requests.length 0) hbegin
  rw [← x.run_eq_play, ← x.run_eq_play] at hboth
  obtain ⟨halike, hending⟩ := hboth
  rw [hrequested, hwhole]
  constructor
  case writes =>
      rw [Extractor.writes, Extractor.writes]
      dsimp only
      rw [hsource]
      dsimp only
      rw [hentries, halike.itemsBegun]
  case files_requested => exact x.files_run ..
  case files_whole => exact x.files_run ..
  case written => exact halike.written
  case errors => exact halike.errors
  case ending => exact hending
  case completed => exact halike.completed
  case loads_requested => exact loads_run_silent x _ hsource hcalm
  case loads_whole => exact loads_run_silent x _ hsource hcalm

/-- An extractor that knows a container of three files. -/
def sampleExtractor : Extractor where
  source := listSource (some .tiancity) [("a.pkg", Draft.sample.toBytes)]
  output := ⟨false, ["out"]⟩
  options := {}

/-- Requests for these files. -/
def sampleRequests : List Request :=
  [⟨"a.pkg", "\\/MAPS\\a.Txt"⟩, ⟨"a.pkg", "maps/B.TXT"⟩, ⟨"a.pkg", "//c.txt"⟩]

/-- Three paths are asked for that are spelled differently from those of the
entries; the work is that of the whole container. -/
theorem extract_whole_sample :
    sampleExtractor.source (.empty "home") "a.pkg" = .ok Draft.sample.opened
      ∧ AskForEach "a.pkg" sampleRequests Draft.sample.opened.entries
      ∧ SameWork sampleExtractor "a.pkg"
        (sampleRequests.map Request.path) (.empty "home")
        (sampleExtractor.extract .silent sampleRequests (.empty "home") {})
        (sampleExtractor.extractContainers .silent ["a.pkg"] (.empty "home")
          {}) := by
  have hparse := Draft.parse_toBytes Draft.sample (by decide +kernel)
    (by decide +kernel)
  have hsource : sampleExtractor.source (.empty "home") "a.pkg"
      = .ok Draft.sample.opened := by
    refine Eq.trans ?_ hparse
    unfold sampleExtractor listSource
    dsimp only
    rw [List.lookup_cons_self]
    rfl
  have heach : AskForEach "a.pkg" sampleRequests
      Draft.sample.opened.entries := by
    refine .cons ⟨rfl, ['\\', '/'], "MAPS\\a.Txt".toList, ?_, by simp, ?_⟩
      (.cons ⟨rfl, [], "maps/B.TXT".toList, ?_, by simp, ?_⟩
        (.cons ⟨rfl, ['/', '/'], "c.txt".toList, ?_, by simp, ?_⟩ .nil))
    all_goals decide +kernel
  have hsome : Draft.sample.opened.entries ≠ [] := List.cons_ne_nil _ _
  have hdistinct : Draft.sample.opened.entries.Pairwise
      fun e f => e.looseName ≠ f.looseName := by
    decide +kernel
  exact ⟨hsource, heach, extract_whole sampleExtractor hsource
    hsome hdistinct heach rfl⟩

end GameArchive.Extraction
