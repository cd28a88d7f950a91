/-
Whose container it is.

Nothing in a container names its provider. To open one with the secrets of
any is to try the providers in a fixed order, and an attempt that fails says
no more than that the next one is to be tried: the outcome is that of the
first attempt that succeeds. The two builds of one publisher share their
secrets, so the later of them is never found; but nothing that is read
depends on which of them it is.

Main statement: `parse_detects`.
-/
import GameArchive.Proofs.Package.Reader

namespace GameArchive.Package.Container

open Reader

section

variable {name : String} {file : Bytes}

-- ================================================================ in turn

/-- Where there is room for a header, a provider that was asked for is the only
one tried. -/
theorem parse_eq_openWith (hlong : tableStart ≤ file.length)
    (provider : Provider) :
    parse name (some provider) file = openWith name file provider := by
  unfold parse
  rw [if_neg (Nat.not_lt.mpr hlong)]

/-- Without a provider that is asked for, all are tried. -/
theorem parse_eq_openAny (hlong : tableStart ≤ file.length) :
    parse name none file = openAny name file := by
  unfold parse
  rw [if_neg (Nat.not_lt.mpr hlong)]

/-- Data without room for a header are refused before any provider is tried. -/
theorem parse_short (hshort : file.length < tableStart)
    (provider : Option Provider) :
    parse name provider file = .error (.shortData tableStart file.length) := by
  unfold parse
  rw [if_pos hshort]

/-- What is opened has room for a header. -/
theorem tableStart_le_of_parse {provider : Option Provider} {c : Container}
    (h : parse name provider file = .ok c) : tableStart ≤ file.length := by
  rw [← Nat.not_lt]
  intro hshort
  rw [parse_short hshort provider] at h
  cases h

/-- Opening with any provider succeeds with the first that fits. -/
theorem openAny_ok_iff {c : Container} :
    openAny name file = .ok c
      ↔ ∃ before provider after, Provider.all = before ++ provider :: after
        ∧ openWith name file provider = .ok c
        ∧ ∀ q ∈ before, ∀ d, openWith name file q ≠ .ok d := by
  have hfound : openAny name file = .ok c
      ↔ (Provider.all.findSome? fun p => (openWith name file p).toOption)
        = some c := by
    unfold openAny
    cases Provider.all.findSome? fun p => (openWith name file p).toOption with
    | none => simp
    | some d => simp
  rw [hfound, List.findSome?_eq_some_iff]
  simp only [Reported.toOption_eq_some_iff, Reported.toOption_eq_none_iff]

/-- Some provider fits exactly if one of them does when it is tried alone. -/
theorem exists_openAny_iff :
    (∃ c, openAny name file = .ok c)
      ↔ ∃ p c, openWith name file p = .ok c := by
  constructor
  · rintro ⟨c, h⟩
    obtain ⟨_, p, _, _, hp, _⟩ := openAny_ok_iff.mp h
    exact ⟨p, c, hp⟩
  · rintro ⟨p, c, h⟩
    -- All providers are tried, so the one that fits is.
    have hall : p ∈ Provider.all := by cases p <;> decide
    unfold openAny
    cases hfound : Provider.all.findSome? fun p =>
        (openWith name file p).toOption with
    | none =>
        have hnone := List.findSome?_eq_none_iff.mp hfound p hall
        exact absurd h (Reported.toOption_eq_none_iff.mp hnone c)
    | some d => exact ⟨d, rfl⟩

/-- If none fits, the mismatch names none. -/
theorem openAny_of_none
    (h : ∀ p d, openWith name file p ≠ .ok d) :
    openAny name file = .error (.providerMismatch none name) := by
  have hnone : (Provider.all.findSome? fun p =>
      (openWith name file p).toOption) = none :=
    List.findSome?_eq_none_iff.mpr fun p _ =>
      Reported.toOption_eq_none_iff.mpr (h p)
  unfold openAny
  rw [hnone]

-- ========================================================= shared secrets

/-- Providers that share the secret of headers open the same container. -/
theorem openWith_of_headerSecret {p q : Provider}
    (hsecret : p.headerSecret = q.headerSecret) {c : Container}
    (h : openWith name file q = .ok c) :
    openWith name file p = .ok { c with provider := p } := by
  unfold openWith at h ⊢
  dsimp only at h ⊢
  rw [hsecret]
  generalize Entry.pathOf? _ = path at h ⊢
  cases path with
  | none => cases h
  | some directory =>
      dsimp only at h ⊢
      split at h
      · cases h
      next hroom =>
        rw [if_neg hroom]
        obtain ⟨entries, hread, hc⟩ := Reported.except_bind_ok h
        cases hc
        rw [hread]
        rfl

section

variable {c : Container} {p : Provider}
  (hsecret : p.dataSecret = c.provider.dataSecret) (e : Entry)

include hsecret

/-- Providers that share the secret of contents read the same. -/
theorem readPayload_of_dataSecret (length : Nat) :
    readPayload { c with provider := p } e length
      = c.readPayload e length := by
  unfold readPayload payloadKey
  dsimp only
  rw [hsecret]

/-- Two providers with the same secret for contents read the same contents. -/
theorem readEntry_of_dataSecret :
    readEntry { c with provider := p } e = c.readEntry e := by
  unfold readEntry
  rw [readPayload_of_dataSecret hsecret]

theorem peek_of_dataSecret :
    peek { c with provider := p } e = c.peek e := by
  unfold peek
  rw [readPayload_of_dataSecret hsecret]

end

-- ============================================================== detection

end

section

variable (name : String) (file : Bytes)

/-- What opening with any provider comes to, told by what opening with each
of them comes to. -/
structure Detects (result : Except Error Container) : Prop where
  ok_iff : (∃ c, result = .ok c)
    ↔ ∃ p c, parse name (some p) file = .ok c
  ok_first : ∀ c, result = .ok c →
    parse name (some c.provider) file = .ok c
      ∧ ∃ before after,
        [.nexon, .tiancity, .beancity, .nexonJp]
            = before ++ c.provider :: after
          ∧ ∀ q ∈ before, ∀ d, parse name (some q) file ≠ .ok d
  error_eq : (∀ p c, parse name (some p) file ≠ .ok c) →
    result = .error (if file.length < 305 then .shortData 305 file.length
      else .providerMismatch none name)
  nexonJp : ∀ d, parse name (some .nexonJp) file = .ok d →
    ∃ c, result = .ok c ∧ c.provider = .nexon ∧ c.directory = d.directory
      ∧ c.entries = d.entries
      ∧ ∀ e, c.readEntry e = d.readEntry e ∧ c.peek e = d.peek e

variable {name file}

theorem detects_of_short (hshort : file.length < tableStart) :
    Detects name file (parse name none file) := by
  have hnone : ∀ provider c, parse name provider file ≠ .ok c := by
    intro provider c h
    exact absurd (tableStart_le_of_parse h) (Nat.not_le.mpr hshort)
  refine ⟨?_, fun c h => absurd h (hnone none c), fun _ => ?_,
    fun d h => absurd h (hnone _ d)⟩
  · constructor
    · rintro ⟨c, h⟩
      exact absurd h (hnone none c)
    · rintro ⟨p, c, h⟩
      exact absurd h (hnone (some p) c)
  · rw [if_pos (show file.length < 305 from hshort)]
    exact parse_short hshort none

theorem detects_of_long (hlong : tableStart ≤ file.length) :
    Detects name file (openAny name file) := by
  have heach : ∀ p, parse name (some p) file = openWith name file p :=
    parse_eq_openWith hlong
  refine ⟨?_, fun c h => ?_, fun h => ?_, fun d h => ?_⟩
  · simp only [heach]
    exact exists_openAny_iff
  · simp only [heach]
    obtain ⟨before, p, after, hall, hopen, hbefore⟩ := openAny_ok_iff.mp h
    obtain rfl : c.provider = p := congrArg provider (openWith_parts hopen)
    exact ⟨hopen, before, after, hall, hbefore⟩
  · simp only [heach] at h
    rw [if_neg (show ¬ file.length < 305 from Nat.not_lt.mpr hlong)]
    exact openAny_of_none h
  · rw [heach] at h
    have hprovider : d.provider = .nexonJp :=
      congrArg provider (openWith_parts h)
    have hheader : Provider.nexon.headerSecret
        = Provider.nexonJp.headerSecret := rfl
    have hfirst : openWith name file .nexon
        = .ok { d with provider := .nexon } :=
      openWith_of_headerSecret hheader h
    have hdata : Provider.nexon.dataSecret = d.provider.dataSecret := by
      rw [hprovider]
      rfl
    refine ⟨{ d with provider := .nexon }, ?_, rfl, rfl, rfl, fun e =>
      ⟨readEntry_of_dataSecret hdata e, peek_of_dataSecret hdata e⟩⟩
    exact openAny_ok_iff.mpr
      ⟨[], .nexon, _, rfl, hfirst, fun _ hq => by cases hq⟩

/-- Opening with any provider is trying one provider after the other; and
this holds behind a reader that all attempts share, as it does for a single
provider. -/
theorem parse_detects (name : String) (file : Bytes) :
    Detects name file (parse name none file)
      ∧ Yields file (load name Provider.all) (parse name none file)
      ∧ ∀ p, Yields file (load name [p]) (parse name (some p) file) := by
  refine ⟨?_, yields_load_all name file, yields_load_one name file⟩
  rcases Nat.lt_or_ge file.length tableStart with hshort | hlong
  · exact detects_of_short hshort
  · rw [parse_eq_openAny hlong]
    exact detects_of_long hlong

end

end GameArchive.Package.Container
