/-
Where a converted file goes.

A conversion does not know whether its input was unwrapped: it compares the
path that transcoding gives back with the name of the input. That path is
another exactly if the wrapper was taken off, files are renamed, and the
name of the input carries a marker. So a wrapped input whose name carries
none is decrypted, and yet the name of the output keeps its marker.

`IsMarked` says of a name what taking the marker off looks for, and not how
it looks: a last dot that is not the first character, and an "e" behind it.

Main statement: `convert_renames`.
-/
import GameArchive.Proofs.FileSystem.Changes
import GameArchive.Proofs.Package.Layers
import GameArchive.Proofs.Text.Parts

namespace GameArchive.Package

-- =============================================================== markers

namespace Wrapper

/-- A file name is a stem and an extension, with the last dot between. -/
structure Extends (name stem extension : List Char) : Prop where
  stem_ne_nil : stem ≠ []
  name_eq : name = stem ++ '.' :: extension
  last : '.' ∉ extension

/-- There is an "e" in the extension of a file name. -/
def IsMarked (name : List Char) : Prop :=
  ∃ stem extension, Extends name stem extension ∧ 'e' ∈ extension

variable {name stem extension : List Char}

theorem take_stem (stem extension : List Char) (d : Char) :
    (stem ++ d :: extension).take
      ((stem ++ d :: extension).length - extension.length - 1) = stem := by
  have hlength : (stem ++ d :: extension).length - extension.length - 1
      = stem.length := by
    rw [List.length_append, List.length_cons]
    omega
  rw [hlength, List.take_left]

/-- A name is split exactly where its extension begins. -/
theorem splitExtension?_eq_some_iff :
    splitExtension? name = some (stem, extension)
      ↔ Extends name stem extension := by
  unfold splitExtension?
  dsimp only
  constructor
  · intro h
    obtain ⟨front, hname, hfront⟩ := Text.exists_front (· == '.') name
    have hlast : '.' ∉ Text.lastPart (· == '.') name := fun hmem =>
      absurd (Text.mem_lastPart hmem) (by decide)
    generalize Text.lastPart (· == '.') name = last at *
    rcases List.eq_nil_or_concat front with rfl | ⟨before, d, rfl⟩
    · -- without a dot there is nothing left for a stem
      subst hname
      simp at h
    · obtain rfl : d = '.' := by simpa using hfront
      rw [List.concat_append] at hname
      subst hname
      rw [take_stem] at h
      split at h
      · cases h
      · rename_i hstem
        cases h
        exact ⟨fun hnil => hstem (by rw [hnil]; rfl), rfl, hlast⟩
  · rintro ⟨hstem, rfl, hlast⟩
    have hpart : Text.lastPart (· == '.') (stem ++ '.' :: extension)
        = extension := by
      refine Text.lastPart_append_separator rfl stem fun c hc => ?_
      exact beq_false_of_ne fun heq => hlast (heq ▸ hc)
    rw [hpart, take_stem, if_neg (by rwa [List.isEmpty_iff])]

/-- Of a marked extension, what is behind its first "e" is left. -/
theorem unmarkedName_of_extends {front rest : List Char}
    (h : Extends name stem (front ++ 'e' :: rest)) (hfirst : 'e' ∉ front) :
    unmarkedName name = if rest = [] then stem else stem ++ '.' :: rest := by
  have hfront : ∀ c ∈ front, (c != 'e') = true := fun c hc =>
    bne_iff_ne.mpr fun heq => hfirst (heq ▸ hc)
  have hdrop : (front ++ 'e' :: rest).dropWhile (· != 'e') = 'e' :: rest :=
    List.dropWhile_append_of_pos hfront
  unfold unmarkedName
  rw [splitExtension?_eq_some_iff.mpr h]
  dsimp only
  rw [hdrop]
  cases rest with
  | nil => rfl
  | cons c rest => rfl

theorem unmarkedName_of_not_isMarked (h : ¬ IsMarked name) :
    unmarkedName name = name := by
  unfold unmarkedName
  cases hsplit : splitExtension? name with
  | none => rfl
  | some parts =>
      obtain ⟨stem, extension⟩ := parts
      have hextends := splitExtension?_eq_some_iff.mp hsplit
      have hkept : ∀ c ∈ extension, (c != 'e') = true := fun c hc =>
        bne_iff_ne.mpr fun heq => h ⟨stem, extension, hextends, heq ▸ hc⟩
      have hdrop : extension.dropWhile (· != 'e') = [] := by
        rw [← List.append_nil extension,
          List.dropWhile_append_of_pos hkept]
        rfl
      dsimp only
      rw [hdrop]

/-- A file name changes exactly if it is marked. -/
theorem unmarkedName_ne_iff : unmarkedName name ≠ name ↔ IsMarked name := by
  constructor
  · intro hne
    exact Classical.byContradiction fun h =>
      hne (unmarkedName_of_not_isMarked h)
  · rintro ⟨stem, extension, hextends, he⟩ hsame
    obtain ⟨front, rest, rfl, hfirst⟩ := List.eq_append_cons_of_mem he
    have hlength := congrArg List.length hextends.name_eq
    rw [← hsame, unmarkedName_of_extends hextends hfirst] at hlength
    split at hlength
    · simp only [List.length_append, List.length_cons] at hlength
      omega
    · simp only [List.length_append, List.length_cons] at hlength
      omega

/-- The path changes exactly if its last name is marked. -/
theorem unmarkedPath_ne_iff (path : String) :
    unmarkedPath path ≠ path ↔ IsMarked (Text.fileName path).toList := by
  obtain ⟨front, hpath, -⟩ := Text.exists_front (· == '/') path.toList
  unfold unmarkedPath Text.fileName
  dsimp only
  rw [← unmarkedName_ne_iff, Ne, ← String.toList_inj, String.toList_ofList,
    String.toList_ofList]
  generalize Text.lastPart (· == '/') path.toList = name at hpath ⊢
  have hfront : path.toList.take (path.toList.length - name.length)
      = front := by
    rw [hpath, List.length_append, Nat.add_sub_cancel, List.take_left]
  rw [hfront, hpath, List.append_cancel_left_eq]

end Wrapper

-- =========================================================== the layers

namespace NamedFile

/-- Whether the wrapper is taken off a file. -/
def losesWrapper (options : Options) (f : NamedFile) : Bool :=
  !(options.replaceShadowBlock && f.isShadowBlock)
    && (options.unwrap && Wrapper.isWrapped f.data)

variable {options : Options} {f t : NamedFile}

/-- What is done to a file in the clear does not rename it. -/
theorem path_transcodePlain (h : (f.transcodePlain options).outcome = .ok t) :
    t.path = f.path := by
  have hpath := f.transcodePlain_withPath options f.path
  rw [show f.withPath f.path = f from rfl, Reported.map_eq] at hpath
  rw [hpath] at h
  cases hbelow : (f.transcodePlain options).outcome with
  | error cause =>
      rw [hbelow] at h
      cases h
  | ok below =>
      rw [hbelow] at h
      cases h
      rfl

/-- It is unwrapping that takes the marker away. -/
theorem path_unwrap (h : f.unwrap options = .ok t) :
    t.path = if (options.unwrap && Wrapper.isWrapped f.data)
        && options.rename then Wrapper.unmarkedPath f.path
      else f.path := by
  unfold unwrap at h
  cases hwrapped : options.unwrap && Wrapper.isWrapped f.data with
  | false =>
      rw [hwrapped] at h
      cases h
      rfl
  | true =>
      rw [hwrapped] at h
      obtain ⟨wrapper, -, h⟩ := Reported.except_bind_ok h
      obtain ⟨plain, -, h⟩ := Reported.except_bind_ok h
      cases h
      rfl

/-- A file is renamed exactly if it loses its wrapper and renaming is asked
for. -/
theorem path_transcode (h : (f.transcode options).outcome = .ok t) :
    t.path = if losesWrapper options f && options.rename
      then Wrapper.unmarkedPath f.path else f.path := by
  unfold losesWrapper
  cases hshadow : options.replaceShadowBlock && f.isShadowBlock with
  | true =>
      unfold transcode at h
      rw [hshadow] at h
      cases h
      rfl
  | false =>
      rw [transcode_eq options f hshadow] at h
      obtain ⟨plain, hplain, h⟩ := Reported.bind_ok h
      rw [path_transcodePlain h, path_unwrap hplain]
      rfl

/-- The path changes exactly where the wrapper is taken off, files are
renamed, and the name is marked. -/
theorem path_transcode_ne_iff (h : (f.transcode options).outcome = .ok t) :
    t.path ≠ f.path
      ↔ (losesWrapper options f = true ∧ options.rename = true)
        ∧ Wrapper.IsMarked (Text.fileName f.path).toList := by
  rw [path_transcode h, ← Wrapper.unmarkedPath_ne_iff, ← Bool.and_eq_true]
  split
  · rename_i hrenamed
    exact (and_iff_right hrenamed).symm
  · rename_i hkept
    exact iff_of_false (fun hne => hne rfl) fun hrenamed => hkept hrenamed.1

/-- Where the result is made of an unwrapped file, that was decrypted. -/
theorem decrypt_of_losesWrapper (h : (f.transcode options).outcome = .ok t)
    (hlost : losesWrapper options f = true) :
    ∃ wrapper plain,
      Wrapper.parse (Text.fileName f.path) f.data = .ok wrapper
      ∧ wrapper.decrypt = .ok plain := by
  unfold losesWrapper at hlost
  rw [Bool.and_eq_true, Bool.not_eq_true'] at hlost
  obtain ⟨hshadow, hwrapped⟩ := hlost
  rw [transcode_eq options f hshadow] at h
  obtain ⟨unwrapped, hunwrapped, -⟩ := Reported.bind_ok h
  replace hunwrapped : f.unwrap options = .ok unwrapped := hunwrapped
  unfold unwrap at hunwrapped
  rw [if_pos hwrapped] at hunwrapped
  obtain ⟨wrapper, hparsed, hunwrapped⟩ := Reported.except_bind_ok hunwrapped
  obtain ⟨plain, hplain, -⟩ := Reported.except_bind_ok hunwrapped
  exact ⟨wrapper, plain, hparsed, hplain⟩

-- ========================================================= loose files

/-- Of a file, under the name of the input, a conversion makes a result,
which is the only file that it writes. -/
structure Converts (options : Options) (files after : FileSystem)
    (input target : PathName) (f result : NamedFile) : Prop where
  name : input.fileName? = some f.path
  contents : files.read input = .ok f.data
  transcoded : (f.transcode options).outcome = .ok result
  decrypted : losesWrapper options f = true → ∃ wrapper plain,
    Wrapper.parse (Text.fileName f.path) f.data = .ok wrapper
    ∧ wrapper.decrypt = .ok plain
  written : after.read target = .ok result.data
  only : ∀ place data, after.node? place = some (.file data) →
    files.node? place ≠ some (.file data) →
    place = FileSystem.lead (files.start target) target.pieces

/-- A path has a name or is refused. -/
theorem nameIn_ok_iff {path : PathName} {cause : Error} {name : String} :
    nameIn path cause = .ok name ↔ path.fileName? = some name := by
  unfold nameIn
  cases path.fileName? with
  | none => exact iff_of_false nofun nofun
  | some other => rw [Except.ok.injEq, Option.some.injEq]

variable {files after : FileSystem} {input output target : PathName}

/-- A conversion that succeeds has made a result and saved it. -/
theorem convert_ok
    (h : convert options files input output = (.ok target, after)) :
    ∃ f result outputName, Converts options files after input target f result
      ∧ output.fileName? = some outputName
      ∧ target = resultPath f.path outputName output result := by
  unfold convert at h
  dsimp only at h
  split at h
  · cases h
  · rename_i place data hresult
    obtain ⟨inputName, hinput, hresult⟩ := Reported.except_bind_ok hresult
    obtain ⟨outputName, houtput, hresult⟩ := Reported.except_bind_ok hresult
    obtain ⟨contents, hcontents, hresult⟩ := Reported.except_bind_ok hresult
    obtain ⟨result, htranscoded, hresult⟩ := Reported.except_bind_ok hresult
    cases hresult
    split at h
    · cases h
    · rename_i hsaved
      cases h
      exact ⟨⟨inputName, contents⟩, result, outputName,
        ⟨nameIn_ok_iff.mp hinput, Reported.mapError_ok_iff.mp hcontents,
          htranscoded, decrypt_of_losesWrapper htranscoded,
          FileSystem.read_of_save hsaved,
          fun place data => FileSystem.eq_of_save hsaved⟩,
        nameIn_ok_iff.mp houtput, rfl⟩

/-- If nothing fails on the way, the result is saved where the two names say. -/
theorem convert_of_save {outputName : String}
    (hinput : input.fileName? = some f.path)
    (houtput : output.fileName? = some outputName)
    (hread : files.read input = .ok f.data)
    (htranscoded : (f.transcode options).outcome = .ok t)
    (hsaved : files.save (resultPath f.path outputName output t) t.data
      = (.ok (), after)) :
    convert options files input output
      = (.ok (resultPath f.path outputName output t), after) := by
  have hcontents : (files.read input).mapError Error.file = .ok f.data :=
    Reported.mapError_ok_iff.mpr hread
  unfold convert
  simp only [nameIn_ok_iff.mpr hinput, nameIn_ok_iff.mpr houtput, hcontents,
    bind, Except.bind, htranscoded, pure, Except.pure, hsaved]

/-- Where the result would go if it went by what is done to the input. -/
def placeByWrapper (options : Options) (f : NamedFile) (outputName : String)
    (output : PathName) : PathName :=
  if losesWrapper options f && options.rename
    then output.withFileName (Wrapper.unmarkedPath outputName) else output

/-- A conversion takes the marker from the name of the output exactly if the
wrapper is taken off, files are renamed, and the name of the input is marked
too. So the result goes where it would by what is done to the input, unless
the input loses its wrapper under a name without a marker and the name of
the output would change. -/
theorem convert_renames
    (h : convert options files input output = (.ok target, after)) :
    ∃ f result outputName, Converts options files after input target f result
      ∧ output.fileName? = some outputName
      ∧ ((losesWrapper options f = true ∧ options.rename = true)
            ∧ Wrapper.IsMarked (Text.fileName f.path).toList →
          target = output.withFileName (Wrapper.unmarkedPath outputName))
      ∧ (¬ ((losesWrapper options f = true ∧ options.rename = true)
            ∧ Wrapper.IsMarked (Text.fileName f.path).toList) →
          target = output)
      ∧ (target = placeByWrapper options f outputName output
        ↔ (losesWrapper options f = true ∧ options.rename = true →
          Wrapper.IsMarked (Text.fileName f.path).toList
            ∨ output = output.withFileName
                (Wrapper.unmarkedPath outputName))) := by
  obtain ⟨f, result, outputName, hconverts, houtput, htarget⟩ := convert_ok h
  have hmoves := path_transcode_ne_iff hconverts.transcoded
  unfold resultPath at htarget
  have hrenamed : (losesWrapper options f = true ∧ options.rename = true)
        ∧ Wrapper.IsMarked (Text.fileName f.path).toList →
      target = output.withFileName (Wrapper.unmarkedPath outputName) := by
    intro hmarked
    rw [htarget, if_pos (hmoves.mpr hmarked)]
  have hkept : ¬ ((losesWrapper options f = true ∧ options.rename = true)
        ∧ Wrapper.IsMarked (Text.fileName f.path).toList) →
      target = output := by
    intro hplain
    rw [htarget, if_neg fun hne => hplain (hmoves.mp hne)]
  refine ⟨f, result, outputName, hconverts, houtput, hrenamed, hkept, ?_⟩
  unfold placeByWrapper
  -- The two rules differ only where a wrapper is lost without a marker.
  by_cases hlost : (losesWrapper options f && options.rename) = true
  · have hboth := Bool.and_eq_true_iff.mp hlost
    rw [if_pos hlost]
    by_cases hmarked : Wrapper.IsMarked (Text.fileName f.path).toList
    · exact iff_of_true (hrenamed ⟨hboth, hmarked⟩) fun _ => .inl hmarked
    · rw [hkept fun hall => hmarked hall.2]
      constructor
      · exact fun hsame _ => .inr hsame
      · exact fun hwhen => (hwhen hboth).resolve_left hmarked
  · have hneither := fun hboth => hlost (Bool.and_eq_true_iff.mpr hboth)
    rw [if_neg hlost]
    exact iff_of_true (hkept fun hall => hneither hall.1) fun hboth =>
      absurd hboth hneither

/-- A folder with one file in it. -/
def loneFile (name : String) (data : Bytes) : FileSystem :=
  ⟨[(["home"], .folder), (["home", name], .file data)], ["home"]⟩

/-- Two letters wrapped under a name without a marker: they are decrypted,
and the name of the output keeps its marker. -/
theorem convert_renames_unmarked :
    ∃ w after, Wrapper.encode "server.cfg" .aes 2 [0x6D, 0x70] = .ok w
      ∧ convert {} (loneFile "server.cfg" w) ⟨false, ["server.cfg"]⟩
          ⟨false, ["x.elua"]⟩ = (.ok ⟨false, ["x.elua"]⟩, after)
      ∧ losesWrapper {} ⟨"server.cfg", w⟩ = true
      ∧ after.read ⟨false, ["x.elua"]⟩ = .ok [0x6D, 0x70]
      ∧ placeByWrapper {} ⟨"server.cfg", w⟩ "x.elua" ⟨false, ["x.elua"]⟩
        = ⟨false, ["x.lua"]⟩ := by
  obtain ⟨w, hw⟩ := Wrapper.exists_encode (by decide : (2 : UInt8).toNat < 8)
    "server.cfg" .aes [0x6D, 0x70]
  have htold : Wrapper.isWrapped w = true := by
    have hrest := Wrapper.isWrapped_encode (by decide) hw []
    rwa [List.append_nil] at hrest
  have hlost : losesWrapper {} ⟨"server.cfg", w⟩ = true := by
    unfold losesWrapper
    rw [htold]
    rfl
  have htranscoded : (transcode {} ⟨"server.cfg", w⟩).outcome
      = .ok ⟨"server.cfg", [0x6D, 0x70]⟩ := by
    rw [(@transcode_wrapped "server.cfg" {} .aes 2 [0x6D, 0x70] w rfl rfl
      (by decide) hw).2]
    rfl
  obtain ⟨after, hsaved⟩ : ∃ after, (loneFile "server.cfg" w).save
      ⟨false, ["x.elua"]⟩ [0x6D, 0x70] = (.ok (), after) := ⟨_, rfl⟩
  have hconverted : convert {} (loneFile "server.cfg" w)
      ⟨false, ["server.cfg"]⟩ ⟨false, ["x.elua"]⟩
      = (.ok ⟨false, ["x.elua"]⟩, after) :=
    @convert_of_save {} ⟨"server.cfg", w⟩ _ _ _ _ _ "x.elua" rfl rfl rfl
      htranscoded hsaved
  obtain ⟨f, result, outputName, hconverts, -⟩ := convert_renames hconverted
  obtain ⟨path, data⟩ := f
  obtain rfl : "server.cfg" = path := Option.some.inj hconverts.name
  obtain rfl : w = data := Except.ok.inj hconverts.contents
  obtain rfl : _ = result :=
    Except.ok.inj (htranscoded.symm.trans hconverts.transcoded)
  have hplace : placeByWrapper {} ⟨"server.cfg", w⟩ "x.elua"
      ⟨false, ["x.elua"]⟩ = ⟨false, ["x.lua"]⟩ := by
    unfold placeByWrapper
    rw [hlost]
    rfl
  exact ⟨w, after, hw, hconverted, hlost, hconverts.written, hplace⟩

end NamedFile
end GameArchive.Package
