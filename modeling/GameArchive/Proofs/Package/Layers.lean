/-
Taking the wrapper off.

What unwrapping leaves is the plain text under another path, and the layers
below look at the path no more: they hand it on. So a wrapped file is
converted to what its plain text is converted to, with the same warnings or
the same error, and only the path of the result can be another.

Main statement: `transcode_wrapped`.
-/
import GameArchive.Package.Transcoding
import GameArchive.Proofs.Package.Wrapping

namespace GameArchive

theorem Reported.map_eq {ω ε α β : Type} (f : α → β)
    (x : Reported ω ε α) : f <$> x = ⟨x.warnings, x.outcome.map f⟩ := by
  obtain ⟨warnings, outcome⟩ := x
  cases outcome with
  | ok a =>
      show (⟨warnings ++ [], .ok (f a)⟩ : Reported ω ε β) = _
      rw [List.append_nil]
      rfl
  | error e => rfl

namespace Package.NamedFile

-- ================================================ the layers below

/-- The same contents under another path. -/
def withPath (path : String) (f : NamedFile) : NamedFile := ⟨path, f.data⟩

/-- What is done to a file whose wrapper is off. -/
def transcodePlain (options : Options) (f : NamedFile) : Step NamedFile := do
  let expanded ← Reported.ofExcept (f.expandTexture options)
  expanded.transcodeMap options

variable (options : Options) (path : String) (f : NamedFile)

/-- A texture is expanded in the same way wherever it is. -/
theorem expandTexture_withPath :
    (f.withPath path).expandTexture options
      = (f.expandTexture options).map (withPath path) := by
  obtain ⟨old, data⟩ := f
  show expandTexture options ⟨path, data⟩
    = (expandTexture options ⟨old, data⟩).map (withPath path)
  unfold expandTexture
  dsimp only
  by_cases htexture : (options.decompress && Texture.isTexture data) = true
  · rw [if_pos htexture, if_pos htexture]
    cases Texture.decompress data with
    | ok expanded => rfl
    | error cause => rfl
  · rw [if_neg htexture, if_neg htexture]
    rfl

theorem transcodeMap_withPath :
    (f.withPath path).transcodeMap options
      = withPath path <$> f.transcodeMap options := by
  obtain ⟨old, data⟩ := f
  show transcodeMap options ⟨path, data⟩
    = withPath path <$> transcodeMap options ⟨old, data⟩
  unfold transcodeMap
  dsimp only
  by_cases hmap : (options.decompress && Map.isVendorMap data) = true
  · rw [if_pos hmap, if_pos hmap, map_bind]
    simp only [map_pure, withPath]
  · rw [if_neg hmap, if_neg hmap]
    rfl

/-- No layer below the wrapper looks at the path. -/
theorem transcodePlain_withPath :
    (f.withPath path).transcodePlain options
      = withPath path <$> f.transcodePlain options := by
  unfold transcodePlain
  rw [expandTexture_withPath]
  cases f.expandTexture options with
  | error e => rfl
  | ok expanded =>
      show (Reported.ofExcept (.ok (expanded.withPath path)) >>= _)
        = withPath path <$> (Reported.ofExcept (.ok expanded) >>= _)
      simp only [Reported.ofExcept_ok, pure_bind, transcodeMap_withPath]

-- ============================================================ the wrapper

/-- Apart from the replaced file, transcoding is unwrapping and then what is
done to plain files. -/
theorem transcode_eq
    (hshadow : (options.replaceShadowBlock && f.isShadowBlock) = false) :
    f.transcode options = (do
      let plain ← Reported.ofExcept (f.unwrap options)
      plain.transcodePlain options) := by
  unfold transcode
  rw [hshadow, if_neg Bool.false_ne_true]
  rfl

/-- Without unwrapping, a file is the plain text of itself. -/
theorem transcode_plain (hunwrap : options.unwrap = false)
    (hshadow : (options.replaceShadowBlock && f.isShadowBlock) = false) :
    f.transcode options = f.transcodePlain options := by
  have hkept : f.unwrap options = .ok f := by
    unfold unwrap
    rw [hunwrap]
    rfl
  rw [transcode_eq options f hshadow, hkept, Reported.ofExcept_ok, pure_bind]

/-- A file that was wrapped is unwrapped, and renamed if this is asked for. -/
theorem unwrap_wrapped {path : String} {options : Options} {cipher : Cipher}
    {selector : UInt8} {plain w : Bytes} (hunwrap : options.unwrap = true)
    (hplain : plain.length < 0x100000000)
    (hw : Wrapper.encode (Text.fileName path) cipher selector plain = .ok w) :
    unwrap options ⟨path, w⟩
      = .ok ⟨if options.rename then Wrapper.unmarkedPath path else path,
          plain⟩ := by
  have htold := Wrapper.isWrapped_encode hplain hw []
  obtain ⟨wrapper, hparsed, hdecrypted⟩ := Wrapper.decrypt_encode hplain hw []
  rw [List.append_nil] at htold hparsed
  unfold unwrap
  dsimp only
  rw [hunwrap, htold, Bool.and_self, if_pos rfl, hparsed]
  simp only [bind, Except.bind, hdecrypted]
  rfl

/-- A wrapped file is converted to what its plain text is converted to, and
its path loses the marker if files are renamed. -/
theorem transcode_wrapped {path : String} {options : Options}
    {cipher : Cipher} {selector : UInt8} {plain w : Bytes}
    (hunwrap : options.unwrap = true)
    (hshadow : (options.replaceShadowBlock
      && isShadowBlock ⟨path, w⟩) = false)
    (hplain : plain.length < 0x100000000)
    (hw : Wrapper.encode (Text.fileName path) cipher selector plain = .ok w) :
    (transcode options ⟨path, w⟩).warnings
        = (transcode { options with unwrap := false } ⟨path, plain⟩).warnings
      ∧ (transcode options ⟨path, w⟩).outcome
        = (transcode { options with unwrap := false }
            ⟨path, plain⟩).outcome.map fun result =>
          ⟨if options.rename then Wrapper.unmarkedPath path else path,
            result.data⟩ := by
  -- The path has no part in what is done below the wrapper.
  have hbelow : transcode { options with unwrap := false } ⟨path, plain⟩
      = transcodePlain options ⟨path, plain⟩ :=
    transcode_plain { options with unwrap := false } ⟨path, plain⟩ rfl hshadow
  have hwrapped : transcode options ⟨path, w⟩
      = transcodePlain options (withPath
          (if options.rename then Wrapper.unmarkedPath path else path)
          ⟨path, plain⟩) := by
    rw [transcode_eq options _ hshadow, unwrap_wrapped hunwrap hplain hw,
      Reported.ofExcept_ok, pure_bind]
    rfl
  rw [hwrapped, transcodePlain_withPath, Reported.map_eq, hbelow]
  exact ⟨rfl, rfl⟩

/-- A wrapped texture of one byte: it is unwrapped under a key that has the
secret before the name, decoded, and loses the marker in its name. -/
theorem transcode_wrapped_texture :
    let texture : Bytes := [0x43, 0x4F, 0x32, 1, 1, 0, 0, 0, 32, 0, 0, 0,
      1, 0, 0, 0, 9]
    ∃ w, Wrapper.encode (Text.fileName "tex/a.evtf") .blowfish 5 texture
        = .ok w
      ∧ (({} : Options).replaceShadowBlock
          && isShadowBlock ⟨"tex/a.evtf", w⟩) = false
      ∧ texture.length < 0x100000000
      ∧ (transcode {} ⟨"tex/a.evtf", w⟩).warnings = []
      ∧ (transcode {} ⟨"tex/a.evtf", w⟩).outcome
        = .ok ⟨"tex/a.vtf", [9]⟩ := by
  intro texture
  have hselector : (5 : UInt8).toNat < 8 := by decide
  obtain ⟨w, hw⟩ := Wrapper.exists_encode hselector
    (Text.fileName "tex/a.evtf") .blowfish texture
  obtain ⟨hwarnings, houtcome⟩ := @transcode_wrapped "tex/a.evtf" {}
    .blowfish 5 texture w rfl rfl (by decide) hw
  have hdecoded : Texture.decompress texture = .ok [9] := by cbv
  have hexpanded : expandTexture { unwrap := false } ⟨"tex/a.evtf", texture⟩
      = .ok ⟨"tex/a.evtf", [9]⟩ := by
    unfold expandTexture
    dsimp only
    rw [if_pos (by decide), hdecoded]
    rfl
  have hbelow : transcode { unwrap := false } ⟨"tex/a.evtf", texture⟩
      = ⟨[], .ok ⟨"tex/a.evtf", [9]⟩⟩ := by
    rw [transcode_plain _ _ rfl rfl, transcodePlain, hexpanded]
    rfl
  have hname : Wrapper.unmarkedPath "tex/a.evtf" = "tex/a.vtf" := rfl
  refine ⟨w, hw, rfl, by decide, ?_, ?_⟩
  · rw [hwarnings, hbelow]
  · rw [houtcome, hbelow, ← hname]
    rfl

end Package.NamedFile
end GameArchive
