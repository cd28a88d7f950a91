/-
Containers do not show that they are behind a reader.

Attempts to open, and all contents that are read later, share one reader and
leave it where they stop. This cannot be told from outside: work that goes to
a place before it reads does not depend on where the reader stood (`Yields`),
and sequences of such work end like the same sequences without a reader.

Main statements: `yields_load_one`, `yields_load_all`, `yields_readPayload`.
-/
import GameArchive.Package.Container.Reader
import GameArchive.Proofs.Package.Exactness
import GameArchive.Proofs.Reported

namespace GameArchive.Package

open Bytes

namespace Reader

-- ================================================================ running

variable {α β : Type}

section

variable {work : Reading α} {r after : Reader}

/-- Work that succeeds is followed by the next, from where it left the
reader. -/
theorem runOn_bind_ok {f : α → Reading β} {a : α}
    (h : runOn work r = (.ok a, after)) :
    runOn (work >>= f) r = runOn (f a) after := by
  have hrun : runOn (work >>= f) r
      = Id.run ((ExceptT.bindCont f (runOn work r).1).run
          (runOn work r).2) := rfl
  rw [hrun, h]
  rfl

theorem runOn_bind_error {f : α → Reading β} {e : Error}
    (h : runOn work r = (.error e, after)) :
    runOn (work >>= f) r = (.error e, after) := by
  have hrun : runOn (work >>= f) r
      = Id.run ((ExceptT.bindCont f (runOn work r).1).run
          (runOn work r).2) := rfl
  rw [hrun, h]
  rfl

end

/-- Reading moves the reader by what was read. -/
theorem runOn_next {file : Bytes} {position length : Nat}
    (h : length ≤ (file.slice position length).length) :
    runOn (next length) ⟨file, position⟩
      = (.ok (file.slice position length), ⟨file, position + length⟩) := by
  show runOn (if (file.slice position length).length < length then _
    else _) _ = _
  rw [if_neg (Nat.not_lt.mpr h)]
  rfl

/-- If there is less, it moves the reader to the end, and fails. -/
theorem runOn_next_short {file : Bytes} {position length : Nat}
    (h : (file.slice position length).length < length) :
    runOn (next length) ⟨file, position⟩
      = (.error (.file .cutShort), ⟨file, file.length⟩) := by
  show runOn (if (file.slice position length).length < length then _
    else _) _ = _
  rw [if_pos h]
  rfl

/-- Only how work ends tells whether it is handled. -/
theorem runOn_tryCatch (work : Reading α) (handler : Error → Reading α)
    (r : Reader) :
    runOn (tryCatch work handler) r
      = runOn (tryCatch (ExceptT.mk fun _ => runOn work r) handler) r :=
  rfl

-- ====================================================== wherever it stands

/-- Work on these bytes ends like this wherever the reader stands at its
beginning, and leaves the bytes as they are. -/
def Yields (file : Bytes) (work : Reading α) (result : Except Error α) : Prop :=
  ∀ start, ∃ stop, runOn work ⟨file, start⟩ = (result, ⟨file, stop⟩)

namespace Yields

variable {file : Bytes} {work : Reading α}

theorem pure (file : Bytes) (a : α) : Yields file (pure a) (.ok a) :=
  fun start => ⟨start, rfl⟩

theorem throw (file : Bytes) (e : Error) :
    Yields file (throw e : Reading α) (.error e) :=
  fun start => ⟨start, rfl⟩

theorem liftExcept (file : Bytes) (x : Except Error α) :
    Yields file (liftExcept x) x := by
  cases x with
  | ok a => exact pure file a
  | error e => exact throw file e

theorem seekEnd (file : Bytes) : Yields file seekEnd (.ok file.length) :=
  fun _ => ⟨file.length, rfl⟩

/-- Reading at a place does not depend on where the reader was. -/
theorem readAt (file : Bytes) (position length : Nat) :
    Yields file (readAt position length)
      (Container.readExact file position length) := by
  intro start
  unfold Container.readExact
  dsimp only
  by_cases h : (file.slice position length).length < length
  · rw [if_pos h]
    exact ⟨file.length, runOn_next_short h⟩
  · rw [if_neg h]
    exact ⟨position + length, runOn_next (Nat.le_of_not_lt h)⟩

/-- Work may follow work: its result does not depend on where the reader was
left. -/
theorem bind_ok {a : α} {f : α → Reading β} {result : Except Error β}
    (h : Yields file work (.ok a)) (hf : Yields file (f a) result) :
    Yields file (work >>= f) result := by
  intro start
  obtain ⟨between, hwork⟩ := h start
  obtain ⟨stop, hrest⟩ := hf between
  exact ⟨stop, (runOn_bind_ok hwork).trans hrest⟩

theorem bind_error {e : Error} {f : α → Reading β}
    (h : Yields file work (.error e)) :
    Yields file (work >>= f) (.error e) := by
  intro start
  obtain ⟨stop, hwork⟩ := h start
  exact ⟨stop, runOn_bind_error hwork⟩

theorem tryCatch_ok {handler : Error → Reading α} {a : α}
    (h : Yields file work (.ok a)) :
    Yields file (tryCatch work handler) (.ok a) := by
  intro start
  obtain ⟨stop, hwork⟩ := h start
  refine ⟨stop, ?_⟩
  rw [runOn_tryCatch, hwork]
  rfl

/-- The handler begins where the work has stopped. -/
theorem tryCatch_error {handler : Error → Reading α} {e : Error}
    {result : Except Error α} (h : Yields file work (.error e))
    (hhandler : Yields file (handler e) result) :
    Yields file (tryCatch work handler) result := by
  intro start
  obtain ⟨between, hwork⟩ := h start
  obtain ⟨stop, hrest⟩ := hhandler between
  refine ⟨stop, ?_⟩
  rw [runOn_tryCatch, hwork]
  exact hrest

end Yields
end Reader

namespace Container

open Reader

-- ============================================= the same without a reader

section

variable {name : String} {file : Bytes}

/-- A container is opened under the name and with the secrets that were
given. -/
theorem openWith_parts {provider : Provider} {c : Container}
    (h : openWith name file provider = .ok c) :
    c = ⟨name, provider, c.directory, c.entries, file.length, file, none⟩ := by
  simp only [openWith, Bind.bind, Except.bind, Pure.pure, Except.pure] at h
  split at h
  · cases h
  · split at h
    · cases h
    · split at h
      · cases h
      · cases h
        rfl

/-- What is found by trying providers. -/
def findingOf (c : Container) : Provider × String × List Entry :=
  (c.provider, c.directory, c.entries)

section

variable (name) (hlong : tableStart ≤ file.length)

include hlong

/-- Trying a provider on the reader is trying it on the bytes. -/
theorem yields_readTableFrom (provider : Provider) :
    Yields file
      (readTableFrom name (file.slice digestSize headerSize) file.length
        provider)
      ((openWith name file provider).map
        fun c => (c.directory, c.entries)) := by
  have hheader : (file.slice digestSize headerSize).length = headerSize := by
    rw [length_slice]
    exact Nat.min_eq_left (Nat.le_sub_of_add_le hlong)
  have hdata : file.slice digestSize headerSize ≠ [] := by
    rw [← List.length_pos_iff, hheader]
    decide
  unfold readTableFrom openWith
  dsimp only
  rw [decryptExact_eq provider.headerSecret name hdata]
  refine (Yields.liftExcept file _).bind_ok ?_
  cases Entry.pathOf? ((Key.decipher (Key.ofSecret provider.headerSecret name)
      (file.slice digestSize headerSize)).take Entry.pathSize) with
  | none => exact Yields.throw file _
  | some directory =>
      -- the count lies within the header
      rw [u32At?_eq_some (by rw [Key.length_decipher, hheader]; decide)]
      dsimp only
      generalize (u32At _ (Entry.pathSize + 4)).toNat = count
      unfold payloadStart
      by_cases hroom : file.length < tableStart + count * Entry.recordSize
      · rw [if_pos hroom, if_pos hroom]
        exact Yields.throw file _
      have hfits := Nat.le_of_not_lt hroom
      have hrecords : AllOfSize Entry.recordSize
          (Bytes.pieces Entry.recordSize count (file.drop tableStart)) := by
        refine allOfSize_pieces ?_
        rw [List.length_drop]
        omega
      rw [if_neg hroom, if_neg hroom]
      have htable := Yields.readAt file tableStart (count * Entry.recordSize)
      rw [readExact_eq hfits] at htable
      refine htable.bind_ok ?_
      rw [pieces_table,
        readEntriesChecked_eq name provider.headerSecret _ hrecords]
      cases readEntries name (Key.ofSecret provider.headerSecret name)
          (tableStart + count * Entry.recordSize) 0
          (Bytes.pieces Entry.recordSize count (file.drop tableStart)) with
      | error e => exact (Yields.liftExcept file (.error e)).bind_error
      | ok entries =>
          exact (Yields.liftExcept file (.ok entries)).bind_ok
            (Yields.pure file _)

/-- Once there is a header, what can be wrong can be a matter of the
secrets. -/
theorem passedOver_of_openWith {provider : Provider} {e : Error}
    (h : openWith name file provider = .error e) :
    (e.isProviderMismatch || e.isMalformedContainer) = true := by
  have hopens := opens_parse name provider file
  unfold parse at hopens
  rw [if_neg (Nat.not_lt.mpr hlong)] at hopens
  dsimp only at hopens
  rw [h] at hopens
  cases hopens with
  | short hshort => exact absurd hlong (Nat.not_le.mpr hshort)
  | foreign | overfull | damaged => rfl

/-- Where several providers are tried, the first whose secrets fit is
found. -/
theorem yields_tryProviders (providers : List Provider) :
    Yields file
      (tryProviders name (file.slice digestSize headerSize) file.length true
        providers)
      (.ok ((providers.findSome? fun p =>
        (openWith name file p).toOption).map findingOf)) := by
  induction providers with
  | nil => exact Yields.pure file none
  | cons provider rest ih =>
      have htable := yields_readTableFrom name hlong provider
      rw [tryProviders, List.findSome?_cons]
      cases hopen : openWith name file provider with
      | error e =>
          rw [hopen] at htable
          refine Yields.tryCatch_error htable.bind_error ?_
          rw [passedOver_of_openWith name hlong hopen]
          exact ih
      | ok c =>
          rw [hopen] at htable
          refine Yields.tryCatch_ok (htable.bind_ok ?_)
          rw [openWith_parts hopen]
          exact Yields.pure file _

/-- Where there is one provider, its error is the answer. -/
theorem yields_tryProviders_one (provider : Provider) :
    Yields file
      (tryProviders name (file.slice digestSize headerSize) file.length false
        [provider])
      ((openWith name file provider).map fun c => some (findingOf c)) := by
  have htable := yields_readTableFrom name hlong provider
  rw [tryProviders]
  cases hopen : openWith name file provider with
  | error e =>
      rw [hopen] at htable
      exact Yields.tryCatch_error htable.bind_error (Yields.throw file e)
  | ok c =>
      rw [hopen] at htable
      refine Yields.tryCatch_ok (htable.bind_ok ?_)
      rw [openWith_parts hopen]
      exact Yields.pure file _

/-- A file that has a header gets as far as to the providers. -/
theorem yields_load {providers : List Provider}
    {result : Except Error Container}
    (h : Yields file
      (tryProviders name (file.slice digestSize headerSize) file.length
        (decide (1 < providers.length)) providers
          >>= conclude name file.length) result) :
    Yields file (load name providers) result := by
  unfold load
  refine (Yields.seekEnd file).bind_ok ?_
  rw [if_neg (Nat.not_lt.mpr hlong)]
  have hheader := Yields.readAt file digestSize headerSize
  rw [readExact_eq hlong] at hheader
  exact hheader.bind_ok h

end

/-- A file without room for a header is refused before any provider is tried. -/
theorem yields_load_short (hshort : file.length < tableStart)
    (providers : List Provider) :
    Yields file (load name providers)
      (.error (.shortData tableStart file.length)) := by
  unfold load
  refine (Yields.seekEnd file).bind_ok ?_
  rw [if_pos hshort]
  exact Yields.throw file _

/-- The provider that was found opens the container. -/
theorem yields_conclude {provider : Provider} {c : Container}
    (h : openWith name file provider = .ok c) :
    Yields file (conclude name file.length (some (findingOf c))) (.ok c) := by
  intro start
  rw [openWith_parts h]
  exact ⟨start, rfl⟩

end

section

variable (name : String) (file : Bytes)

/-- Loading with one provider is parsing with it. -/
theorem yields_load_one (provider : Provider) :
    Yields file (load name [provider]) (parse name (some provider) file) := by
  unfold parse
  by_cases hshort : file.length < tableStart
  · rw [if_pos hshort]
    exact yields_load_short hshort [provider]
  rw [if_neg hshort]
  dsimp only
  have hlong := Nat.le_of_not_lt hshort
  have htry := yields_tryProviders_one name hlong provider
  cases hopen : openWith name file provider with
  | error e =>
      rw [hopen] at htry
      exact yields_load name hlong htry.bind_error
  | ok c =>
      rw [hopen] at htry
      exact yields_load name hlong (htry.bind_ok (yields_conclude hopen))

/-- Loading with all is parsing with none asked for. -/
theorem yields_load_all :
    Yields file (load name Provider.all) (parse name none file) := by
  unfold parse
  by_cases hshort : file.length < tableStart
  · rw [if_pos hshort]
    exact yields_load_short hshort Provider.all
  rw [if_neg hshort]
  dsimp only
  have hlong := Nat.le_of_not_lt hshort
  have htry := yields_tryProviders name hlong Provider.all
  unfold openAny
  cases hfound : Provider.all.findSome? fun p =>
      (openWith name file p).toOption with
  | none =>
      rw [hfound] at htry
      exact yields_load name hlong (htry.bind_ok (Yields.throw file _))
  | some c =>
      obtain ⟨p, -, hp⟩ := List.exists_of_findSome?_eq_some hfound
      rw [hfound] at htry
      exact yields_load name hlong (htry.bind_ok
        (yields_conclude (Reported.toOption_eq_some_iff.mp hp)))

end

-- ================================================================ strides

section

variable {decode : Bytes → Except Error Bytes} {clear : Bytes → Bytes}
  (hdecode : ∀ stored, stored ≠ [] → decode stored = .ok (clear stored))

include hdecode

/-- Buffers that were cut from one are filled like that one. -/
theorem runOn_fill (file : Bytes) (count : Nat) :
    ∀ {position length : Nat}, length ≤ count * strideSize →
      length ≤ file.length - position →
      [] ∉ Bytes.pieces strideSize count (zeros length) →
      runOn (fill decode (Bytes.pieces strideSize count (zeros length)))
          ⟨file, position⟩
        = (.ok ((Bytes.pieces strideSize count
            (file.slice position length)).flatMap clear),
          ⟨file, position + length⟩) := by
  induction count with
  | zero =>
      intro position length hlength _ _
      rw [Nat.zero_mul, Nat.le_zero] at hlength
      rw [hlength]
      rfl
  | succ count ih =>
      intro position length hlength hthere hnil
      rw [Nat.succ_mul] at hlength
      have hbuffer : ((zeros length).take strideSize).length
          = min strideSize length := by
        rw [List.length_take, length_zeros]
      have hlater : (zeros length).drop strideSize
          = zeros (length - strideSize) := List.drop_replicate
      rw [Bytes.pieces, hlater] at hnil ⊢
      rw [List.mem_cons, not_or, eq_comm, ← List.length_eq_zero_iff,
        hbuffer] at hnil
      obtain ⟨hfirst, hrest⟩ := hnil
      have hread : min strideSize length
          ≤ (file.slice position (min strideSize length)).length := by
        rw [length_slice]
        omega
      have hstored : file.slice position (min strideSize length) ≠ [] := by
        rw [← List.length_pos_iff]
        omega
      have hnext := @ih (position + min strideSize length)
        (length - strideSize) (by omega) (by omega) hrest
      have hhead : (file.slice position length).take strideSize
          = file.slice position (min strideSize length) := List.take_take
      have htail : (file.slice position length).drop strideSize
          = file.slice (position + min strideSize length)
              (length - strideSize) := by
        rw [drop_slice]
        -- Behind a short last buffer there is nothing to read.
        rcases Nat.le_total strideSize length with hwhole | hshort
        · rw [Nat.min_eq_left hwhole]
        · unfold slice
          rw [Nat.sub_eq_zero_of_le hshort, List.take_zero, List.take_zero]
      have hstop : position + min strideSize length + (length - strideSize)
          = position + length := by omega
      rw [fill, hbuffer, Bytes.pieces, hhead, htail, List.flatMap_cons,
        ← hstop]
      refine (runOn_bind_ok (runOn_next hread)).trans ?_
      rw [hdecode _ hstored]
      refine (runOn_bind_ok rfl).trans ?_
      exact runOn_bind_ok hnext

/-- The strides of a buffer are those of what is read into it. -/
theorem runOn_fill_strides {file : Bytes} {position length : Nat}
    (hthere : length ≤ file.length - position) :
    runOn (fill decode ((zeros length).strides strideSize)) ⟨file, position⟩
      = (.ok (((file.slice position length).strides strideSize).flatMap clear),
        ⟨file, position + length⟩) := by
  have hread : (file.slice position length).length = length := by
    rw [length_slice]
    exact Nat.min_eq_left hthere
  have hreach := Nat.lt_div_mul_add (a := length + (strideSize - 1))
    (show 0 < strideSize by decide)
  have hnil := nil_notMem_strides (show 0 < strideSize by decide)
    (zeros length)
  unfold strides at hnil ⊢
  rw [length_zeros] at hnil ⊢
  rw [hread]
  exact runOn_fill hdecode file _ (by omega) hthere hnil

end

/-- Contents that are read stride by stride from a file that is still the
one that was opened. -/
theorem yields_readPayload {c : Container}
    (hopened : c.openedSize = c.file.length) (e : Entry) (length : Nat) :
    Yields c.file (readPayloadFrom c e length) (c.readPayload e length) := by
  unfold readPayloadFrom readPayload
  by_cases hnone : (decide (e.packedSize = 0) || decide (length = 0)) = true
  · rw [if_pos hnone, if_pos hnone]
    exact Yields.pure c.file _
  rw [if_neg hnone, if_neg hnone]
  dsimp only
  by_cases hmissing : slack < length - min length (c.openedSize - e.offset)
  · rw [if_pos hmissing, if_pos hmissing]
    exact Yields.throw c.file _
  rw [if_neg hmissing, if_neg hmissing]
  have hthere : min length (c.openedSize - e.offset)
      ≤ c.file.length - e.offset := hopened ▸ Nat.min_le_right ..
  generalize min length (c.openedSize - e.offset) = count at hthere
  have hread : ¬ (c.file.slice e.offset count).length < count := by
    rw [length_slice]
    omega
  rw [if_neg hread]
  refine fun start => ⟨e.offset + count, (runOn_bind_ok rfl).trans ?_⟩
  by_cases hencrypted : e.isEncrypted = true
  · rw [if_pos hencrypted, if_pos hencrypted]
    exact runOn_fill_strides
      (fun _ hstored => decryptExact_eq _ _ hstored) hthere
  · rw [if_neg hencrypted, if_neg hencrypted]
    have hplain := @runOn_fill_strides .ok id (fun _ _ => rfl) c.file
      e.offset count hthere
    rwa [List.flatMap_id, flatten_strides _ _ (by decide)] at hplain

/-- Peeking through the reader finds the same flags. -/
theorem yields_peek {c : Container} (hopened : c.openedSize = c.file.length)
    (e : Entry) : Yields c.file (peekFrom c e) (c.peek e) := by
  unfold peekFrom peek
  by_cases hshort : e.packedSize.toNat < WrapperHeader.size
  · rw [if_pos hshort, if_pos hshort]
    exact Yields.pure c.file _
  rw [if_neg hshort, if_neg hshort]
  have hread := yields_readPayload hopened e (min peekSize e.packedSize.toNat)
  cases hhead : c.readPayload e (min peekSize e.packedSize.toNat) with
  | error fault =>
      rw [hhead] at hread
      exact hread.bind_error
  | ok head =>
      rw [hhead] at hread
      exact hread.bind_ok (Yields.pure c.file _)

end Container
end GameArchive.Package
