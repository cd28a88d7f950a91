/-
The engine in place does what the engine does.

Overwriting block after block puts there what the mode makes of the row of
blocks, since a step sees only its block and what was handed on to it. All
checks stand before the first step, and no step fails; so work that fails
has written nothing. What is known of the modes is thereby known of buffers.

Main statements: `runOn_decryptFromInPlace`, `soundEngine`.
-/
import GameArchive.Cipher.InPlace
import GameArchive.Proofs.Cipher.Engine

namespace GameArchive

-- ================================================================== steps

/-- What a step makes of a row of blocks. -/
def walkBlocks (step : BlockStep) :
    (carried : Bytes) → List Bytes → List Bytes
  | _, [] => []
  | carried, block :: rest =>
    (step carried block).1 :: walkBlocks step (step carried block).2 rest

namespace BlockCipher

variable (c : BlockCipher) (chained : Bool) (blocks : List Bytes)

/-- What a walk with the step of encryption makes of blocks: the chain or each
block by itself. -/
theorem walkBlocks_encryptStep (iv : Bytes) :
    walkBlocks (c.encryptStep chained) iv blocks
      = if chained then c.encryptChain iv blocks
        else c.encryptEach blocks := by
  induction blocks generalizing iv with
  | nil => cases chained <;> rfl
  | cons block rest ih =>
      cases chained with
      | true => exact congrArg (_ :: ·) (ih _)
      | false => exact congrArg (_ :: ·) (ih _)

theorem walkBlocks_decryptStep (iv : Bytes) :
    walkBlocks (c.decryptStep chained) iv blocks
      = if chained then c.decryptChain iv blocks
        else c.decryptEach blocks := by
  induction blocks generalizing iv with
  | nil => cases chained <;> rfl
  | cons block rest ih =>
      cases chained with
      | true => exact congrArg (_ :: ·) (ih _)
      | false => exact congrArg (_ :: ·) (ih _)

end BlockCipher

namespace Cipher

open InPlace

/-- A walk of encryption is the mode of the cipher. -/
theorem walkBlocks_encryptStep (c : Cipher) (iv key : Bytes) :
    walkBlocks ((c.keyed key).encryptStep c.chains) iv
      = c.encryptMode iv key := by
  funext blocks
  rw [BlockCipher.walkBlocks_encryptStep]
  unfold encryptMode
  split <;> rfl

theorem walkBlocks_decryptStep (c : Cipher) (iv key : Bytes) :
    walkBlocks ((c.keyed key).decryptStep c.chains) iv
      = c.decryptMode iv key := by
  funext blocks
  rw [BlockCipher.walkBlocks_decryptStep]
  unfold decryptMode
  split <;> rfl

-- ================================================================= sweeps

/-- A sweep ends well, with the blocks overwritten and what is behind them
as it was. -/
theorem run_sweep (size : Nat) (step : BlockStep) (count : Nat) :
    ∀ (carried : Bytes) (b : Buffer),
      (sweep size step count carried).run.run b
        = (.ok (), ⟨(walkBlocks step carried
            (Bytes.pieces size count b.rest)).reverse ++ b.written,
          b.rest.drop (count * size)⟩) := by
  induction count with
  | zero =>
      intro carried b
      rw [Nat.zero_mul]
      rfl
  | succ count ih =>
      intro carried b
      have hnext := ih (step carried (b.rest.take size)).2
        (b.overwrite size (step carried (b.rest.take size)).1)
      refine Eq.trans (show _ = (sweep size step count
        (step carried (b.rest.take size)).2).run.run _ from rfl)
        (hnext.trans ?_)
      rw [Bytes.pieces, walkBlocks, List.reverse_cons, List.append_assoc,
        Nat.succ_mul, Nat.add_comm, ← List.drop_drop]
      rfl

/-- What becomes of a buffer for which there is this result. -/
def settle (data : Bytes) : Except Fault Bytes → Except Fault Unit × Bytes
  | .ok out => (.ok (), out)
  | .error fault => (.error fault, data)

/-- Work in place that does this to the blocks of a buffer. -/
def Sweeps (c : Cipher) (key : Bytes) (mode : List Bytes → List Bytes)
    (work : InPlace Unit) : Prop :=
  ∀ data, work.runOn data
    = settle data ((c.check data key).map fun _ =>
        overBlocks c.blockSize mode data)

/-- Sweeping over a buffer block by block runs a mode over its blocks, and
leaves the rest of it. -/
theorem sweeps_sweepBlocks (c : Cipher) (key : Bytes) (step : BlockStep)
    (carried : Bytes) :
    Sweeps c key (walkBlocks step carried)
      (c.sweepBlocks key step carried) := by
  intro data
  have hrun : (c.sweepBlocks key step carried).runOn data
      = (liftExcept (c.check data key) >>= fun _ =>
          sweep c.blockSize step (data.length / c.blockSize) carried :
        InPlace Unit).runOn data := rfl
  rw [hrun]
  cases c.check data key with
  | error fault => rfl
  | ok =>
      show (sweep c.blockSize step (data.length / c.blockSize)
        carried).runOn data = _
      unfold runOn
      rw [run_sweep]
      show (Except.ok (), Buffer.bytes _) = (Except.ok (), _)
      unfold Buffer.bytes
      dsimp only
      rw [Buffer.ofBytes, List.append_nil, List.reverse_reverse]
      rfl

section

variable (c : Cipher) (key : Bytes)

/-- Encryption in place runs the mode of encryption. -/
theorem sweeps_encryptInPlace :
    Sweeps c key (c.encryptMode zeroVector key) (c.encryptInPlace key) := by
  rw [← walkBlocks_encryptStep]
  exact sweeps_sweepBlocks c key _ _

theorem sweeps_decryptFromInPlace (iv : Bytes) :
    Sweeps c key (c.decryptMode iv key) (c.decryptFromInPlace iv key) := by
  rw [← walkBlocks_decryptStep]
  exact sweeps_sweepBlocks c key _ _

/-- What encryption does in place to a buffer is its result, or nothing. -/
theorem runOn_encryptInPlace (data : Bytes) :
    (c.encryptInPlace key).runOn data = settle data (c.encrypt data key) := by
  rw [sweeps_encryptInPlace c key data, ← encryptBlocks_eq]
  unfold encrypt
  cases c.check data key <;> rfl

/-- What decryption does in place to a buffer is its result, or nothing. -/
theorem runOn_decryptFromInPlace (iv data : Bytes) :
    (c.decryptFromInPlace iv key).runOn data
      = settle data (c.decryptFrom iv data key) := by
  rw [sweeps_decryptFromInPlace c key iv data, ← decryptBlocks_eq]
  unfold decryptFrom
  cases c.check data key <;> rfl

end

-- ==================================================================== laws

/-- The lengths of the keys that a cipher takes. -/
def TakesKey : Cipher → (length : Nat) → Prop
  | .des, length => 8 ≤ length
  | .aes, length => length = 16 ∨ length = 24 ∨ length = 32
  | .blowfish, length => 4 ≤ length ∧ length ≤ 56
  | .rijndael, length => 16 ≤ length

/-- The lengths of keys that are accepted are those that ciphers take. -/
theorem acceptsKey_iff {c : Cipher} {length : Nat} :
    c.acceptsKey length = true ↔ c.TakesKey length := by
  cases c <;> simp [acceptsKey, TakesKey, or_assoc]

/-- Work in place that succeeds for every buffer with something in it under
every key that the cipher takes, leaves alone what is behind the whole blocks,
and leaves all alone if it fails. -/
structure KeepsToBlocks (c : Cipher) (key : Bytes) (work : InPlace Unit) :
    Prop where
  succeeds : ∀ data, (work.runOn data).1 = .ok ()
    ↔ data ≠ [] ∧ c.TakesKey key.length
  unchanged : ∀ data fault, (work.runOn data).1 = .error fault →
    (work.runOn data).2 = data
  length_eq : ∀ data, (work.runOn data).2.length = data.length
  rest : ∀ data,
    (work.runOn data).2.drop (data.length / c.blockSize * c.blockSize)
      = data.drop (data.length / c.blockSize * c.blockSize)

/-- Work in place that brings back what other work has made something of. -/
def Undoes (back work : InPlace Unit) : Prop :=
  ∀ data, (work.runOn data).1 = .ok () →
    back.runOn (work.runOn data).2 = (.ok (), data)

/-- Work in place that does to each block what it does to a buffer of this
block alone. -/
def BlockByBlock (size : Nat) (work : InPlace Unit) : Prop :=
  ∀ data k, k < data.length / size →
    work.runOn (data.slice (k * size) size)
      = ((work.runOn data).1, (work.runOn data).2.slice (k * size) size)

/-- Work in place that does to the first blocks what it does to a buffer of
these alone. -/
def NeverLooksAhead (size : Nat) (work : InPlace Unit) : Prop :=
  ∀ data n, n ≤ data.length / size →
    (work.runOn (data.take (n * size))).2
      = (work.runOn data).2.take (n * size)

/-- A buffer with a vector added to its first block, if there is one. -/
def addToFirst (iv data : Bytes) : Bytes :=
  if data.length < 16 then data
  else Bytes.xor (data.take 16) iv ++ data.drop 16

/-- Work in place that does what other work does, and then adds a vector to
the first block. -/
def AddsToFirst (iv : Bytes) (work plain : InPlace Unit) : Prop :=
  ∀ data, (work.runOn data).1 = (plain.runOn data).1
    ∧ ((plain.runOn data).1 = .ok () →
      (work.runOn data).2 = addToFirst iv (plain.runOn data).2)

section

variable {c : Cipher} {key : Bytes} {mode back : List Bytes → List Bytes}
  {work undoing : InPlace Unit}

theorem check_congr {data data' : Bytes} (hdata : data ≠ [])
    (hdata' : data' ≠ []) : c.check data key = c.check data' key := by
  simp [check, hdata, hdata']

/-- Work either does to a buffer what the mode does, or nothing. -/
theorem Sweeps.run_cases (h : Sweeps c key mode work) (data : Bytes) :
    ((data ≠ [] ∧ c.TakesKey key.length)
        ∧ work.runOn data = (.ok (), overBlocks c.blockSize mode data))
      ∨ (¬ (data ≠ [] ∧ c.TakesKey key.length)
        ∧ ∃ fault, work.runOn data = (.error fault, data)) := by
  have hrun := h data
  cases hcheck : c.check data key with
  | ok =>
      rw [hcheck] at hrun
      rw [check_ok_iff, acceptsKey_iff] at hcheck
      exact .inl ⟨hcheck, hrun⟩
  | error fault =>
      rw [hcheck] at hrun
      refine .inr ⟨fun hpasses => ?_, fault, hrun⟩
      rw [← acceptsKey_iff, ← check_ok_iff, hcheck] at hpasses
      cases hpasses

/-- A sweep changes whole blocks only, and fails before it changes anything. -/
theorem Sweeps.keepsToBlocks (h : Sweeps c key mode work)
    (hmode : KeepsShape c.blockSize mode) : KeepsToBlocks c key work := by
  constructor
  case succeeds =>
      intro data
      rcases h.run_cases data with ⟨hpasses, hrun⟩ | ⟨hfails, fault, hrun⟩
      · rw [hrun]
        exact iff_of_true rfl hpasses
      · rw [hrun]
        exact iff_of_false (fun hok => nomatch hok) hfails
  case unchanged =>
      intro data fault herror
      rcases h.run_cases data with ⟨-, hrun⟩ | ⟨-, fault', hrun⟩
      · rw [hrun] at herror
        cases herror
      · rw [hrun]
  case length_eq =>
      intro data
      rcases h.run_cases data with ⟨-, hrun⟩ | ⟨-, fault, hrun⟩
      · rw [hrun]
        exact length_overBlocks hmode data
      · rw [hrun]
  case rest =>
      intro data
      rcases h.run_cases data with ⟨-, hrun⟩ | ⟨-, fault, hrun⟩
      · rw [hrun]
        exact drop_overBlocks hmode data
      · rw [hrun]

/-- A sweep undoes another if its mode undoes that of the other. -/
theorem Sweeps.undoes (h : Sweeps c key mode work)
    (hundoing : Sweeps c key back undoing)
    (hmode : KeepsShape c.blockSize mode)
    (hback : ∀ {blocks : List Bytes}, AllOfSize c.blockSize blocks →
      back (mode blocks) = blocks) : Undoes undoing work := by
  intro data hok
  rcases h.run_cases data with ⟨⟨hdata, hkey⟩, hrun⟩ | ⟨-, fault, hrun⟩
  case inr =>
      rw [hrun] at hok
      cases hok
  have hout : overBlocks c.blockSize mode data ≠ [] := by
    rwa [← List.length_pos_iff, length_overBlocks hmode, List.length_pos_iff]
  rw [hrun, hundoing, check_ok_iff.mpr ⟨hout, acceptsKey_iff.mpr hkey⟩]
  exact congrArg (Prod.mk (Except.ok ()))
    (overBlocks_overBlocks hmode hback data)

theorem blockSize_pos (c : Cipher) : 0 < c.blockSize := by
  cases c <;> exact Nat.succ_pos _

/-- A sweep that treats each block by itself treats a block of a buffer like a
buffer of this block. -/
theorem Sweeps.blockByBlock {g : Bytes → Bytes}
    (h : Sweeps c key (List.map g) work)
    (hmode : KeepsShape c.blockSize (List.map g)) :
    BlockByBlock c.blockSize work := by
  intro data k hk
  have hsize := c.blockSize_pos
  have hwhole : (k + 1) * c.blockSize ≤ data.length :=
    Nat.le_trans (Nat.mul_le_mul_right _ hk) (Nat.div_mul_le_self ..)
  have hlength := Bytes.length_slice data (k * c.blockSize) c.blockSize
  rw [Nat.succ_mul] at hwhole
  have hslice : data.slice (k * c.blockSize) c.blockSize ≠ [] := by
    rw [← List.length_pos_iff, hlength]
    omega
  have hdata : data ≠ [] := by
    rw [← List.length_pos_iff]
    omega
  rw [h, h, check_congr hslice hdata]
  cases c.check data key with
  | error fault => rfl
  | ok =>
      exact congrArg (Prod.mk (Except.ok ())) (overBlocks_slice hmode hsize hk)

/-- A sweep whose mode does not look ahead makes the same of the first blocks,
whatever follows them. -/
theorem Sweeps.neverLooksAhead (h : Sweeps c key mode work)
    (hmode : KeepsShape c.blockSize mode)
    (htake : ∀ blocks n, mode (blocks.take n) = (mode blocks).take n) :
    NeverLooksAhead c.blockSize work := by
  intro data n hn
  have hsize := c.blockSize_pos
  rcases Nat.eq_zero_or_pos n with rfl | hpos
  · have hnone := (h.keepsToBlocks hmode).length_eq []
    rw [Nat.zero_mul, List.take_zero, List.take_zero]
    exact List.eq_nil_of_length_eq_zero hnone
  have hwhole : n * c.blockSize ≤ data.length :=
    Nat.le_trans (Nat.mul_le_mul_right _ hn) (Nat.div_mul_le_self ..)
  have hfirst : 0 < n * c.blockSize := Nat.mul_pos hpos hsize
  have htaken : data.take (n * c.blockSize) ≠ [] := by
    rw [← List.length_pos_iff, List.length_take]
    omega
  have hdata : data ≠ [] := by
    rw [← List.length_pos_iff]
    omega
  rw [h, h, check_congr htaken hdata]
  cases c.check data key with
  | error fault => rfl
  | ok => exact overBlocks_take hmode htake hsize hn

end

/-- Only the first block of a chain knows what the chain starts from. -/
theorem overBlocks_decryptChain {b : BlockCipher} (hb : b.Lawful)
    (hsize : b.blockSize = 16) (iv data : Bytes) :
    overBlocks 16 (b.decryptChain iv) data
      = addToFirst iv (overBlocks 16 (b.decryptChain zeroVector) data) := by
  rcases Nat.lt_or_ge data.length 16 with hshort | hlong
  · have hsame : ∀ iv, overBlocks 16 (b.decryptChain iv) data = data := by
      intro iv
      unfold overBlocks
      rw [Nat.div_eq_of_lt hshort]
      exact congrArg (_ ++ ·) (by rw [Nat.zero_mul, List.drop_zero])
    unfold addToFirst
    rw [hsame, hsame, if_pos hshort]
  · obtain ⟨count, hcount⟩ : ∃ count, data.length / 16 = count + 1 :=
      ⟨data.length / 16 - 1, by omega⟩
    have hfirst : (b.decrypt (data.take 16)).length = 16 :=
      (hb.length_decrypt _).trans hsize
    -- Behind the first block, both are the same.
    obtain ⟨later, hlater⟩ : ∃ later, ∀ iv,
        overBlocks 16 (b.decryptChain iv) data
          = Bytes.xor (b.decrypt (data.take 16)) iv ++ later := by
      refine ⟨(b.decryptChain (data.take 16)
        (Bytes.pieces 16 count (data.drop 16))).flatten
          ++ data.drop ((count + 1) * 16), fun iv => ?_⟩
      unfold overBlocks
      rw [hcount]
      exact List.append_assoc ..
    have hzero : Bytes.xor (b.decrypt (data.take 16)) zeroVector
        = b.decrypt (data.take 16) :=
      BlockCipher.xor_zeros (Nat.le_of_eq hfirst)
    have hwhole : ¬ (b.decrypt (data.take 16) ++ later).length < 16 := by
      rw [List.length_append, hfirst]
      omega
    unfold addToFirst
    rw [hlater, hlater, hzero, if_neg hwhole, List.take_left' hfirst,
      List.drop_left' hfirst]

/-- The initial vector of a chain is added to the first block of what decryption
gives without one, and to nothing else. -/
theorem addsToFirst_decryptFromInPlace {c : Cipher}
    (hchains : c.chains = true) (key iv : Bytes) :
    AddsToFirst iv (c.decryptFromInPlace iv key) (c.decryptInPlace key) := by
  intro data
  have hsize := blockSize_of_chains hchains
  have hmode : ∀ iv, c.decryptMode iv key = (c.keyed key).decryptChain iv :=
    fun iv => if_pos hchains
  have hzero := sweeps_decryptFromInPlace c key zeroVector data
  rw [sweeps_decryptFromInPlace c key iv data]
  unfold decryptInPlace
  rw [hzero, hmode, hmode, hsize]
  cases c.check data key with
  | error fault => exact ⟨rfl, fun hok => nomatch hok⟩
  | ok =>
      exact ⟨rfl, fun _ => overBlocks_decryptChain (c.lawful_keyed key)
        ((blockSize_keyed c key).trans hsize) iv data⟩

/-- A chain is decrypted block after block. -/
theorem neverLooksAhead_decryptFromInPlace {c : Cipher}
    (hchains : c.chains = true) (key : Bytes) {iv : Bytes}
    (hiv : iv.length = 16) :
    NeverLooksAhead 16 (c.decryptFromInPlace iv key) := by
  have hmode : c.decryptMode iv key = (c.keyed key).decryptChain iv :=
    if_pos hchains
  rw [← blockSize_of_chains hchains]
  refine (sweeps_decryptFromInPlace c key iv).neverLooksAhead
    (keepsShape_decryptMode c hiv key) fun blocks n => ?_
  rw [hmode]
  exact BlockCipher.decryptChain_take blocks iv n

-- ================================================================= engine

/-- What there is to say of the engine in place, under a key and for chains
that start from a vector. -/
structure SoundEngine (c : Cipher) (key iv : Bytes) : Prop where
  results : ∀ data,
    (c.encryptInPlace key).runOn data = settle data (c.encrypt data key)
      ∧ (c.decryptInPlace key).runOn data = settle data (c.decrypt data key)
      ∧ (c.decryptFromInPlace iv key).runOn data
        = settle data (c.decryptFrom iv data key)
  encrypt : KeepsToBlocks c key (c.encryptInPlace key)
  decrypt : KeepsToBlocks c key (c.decryptInPlace key)
  decryptFrom : KeepsToBlocks c key (c.decryptFromInPlace iv key)
  decrypt_encrypt : Undoes (c.decryptInPlace key) (c.encryptInPlace key)
  encrypt_decrypt : Undoes (c.encryptInPlace key) (c.decryptInPlace key)
  alone : c = .des ∨ c = .blowfish →
    BlockByBlock 8 (c.encryptInPlace key)
      ∧ BlockByBlock 8 (c.decryptInPlace key)
      ∧ ∀ data, (c.decryptFromInPlace iv key).runOn data
        = (c.decryptInPlace key).runOn data
  chained : c = .aes ∨ c = .rijndael →
    AddsToFirst iv (c.decryptFromInPlace iv key) (c.decryptInPlace key)
      ∧ NeverLooksAhead 16 (c.decryptFromInPlace iv key)
      ∧ NeverLooksAhead 16 (c.decryptInPlace key)

/-- The engine is sound for every cipher, key and initial vector. -/
theorem soundEngine (c : Cipher) (key : Bytes) {iv : Bytes}
    (hiv : iv.length = 16) : SoundEngine c key iv := by
  have hzero : zeroVector.length = 16 := Bytes.length_zeros 16
  -- All that is said of the engine follows from the modes that it sweeps with.
  have hencrypt := sweeps_encryptInPlace c key
  have hdecrypt := sweeps_decryptFromInPlace c key zeroVector
  have hfrom := sweeps_decryptFromInPlace c key iv
  have hencrypted := keepsShape_encryptMode c zeroVector key
  have hdecrypted := keepsShape_decryptMode c hzero key
  constructor
  case results =>
      exact fun data => ⟨runOn_encryptInPlace c key data,
        runOn_decryptFromInPlace c key zeroVector data,
        runOn_decryptFromInPlace c key iv data⟩
  case encrypt => exact hencrypt.keepsToBlocks hencrypted
  case decrypt => exact hdecrypt.keepsToBlocks hdecrypted
  case decryptFrom =>
      exact hfrom.keepsToBlocks (keepsShape_decryptMode c hiv key)
  case decrypt_encrypt =>
      exact hencrypt.undoes hdecrypt hencrypted
        (decryptMode_encryptMode c hzero key)
  case encrypt_decrypt =>
      exact hdecrypt.undoes hencrypt hdecrypted
        (encryptMode_decryptMode c hzero key)
  case alone =>
      rintro (rfl | rfl) <;>
        exact ⟨hencrypt.blockByBlock hencrypted,
          hdecrypt.blockByBlock hdecrypted,
          fun data => (hfrom data).trans (hdecrypt data).symm⟩
  case chained =>
      intro hcipher
      have hchains : c.chains = true := by
        rcases hcipher with rfl | rfl <;> rfl
      exact ⟨addsToFirst_decryptFromInPlace hchains key iv,
        neverLooksAhead_decryptFromInPlace hchains key hiv,
        neverLooksAhead_decryptFromInPlace hchains key hzero⟩

/-- A buffer of one block and five bytes behind it. -/
theorem soundEngine_partialBlock :
    let key := Bytes.zeros 16
    let iv : Bytes := List.replicate 16 1
    let data : Bytes := List.replicate 21 7
    let sealed := ((encryptInPlace .aes key).runOn data).2
    iv.length = 16
      ∧ SoundEngine .aes key iv
      ∧ (decryptInPlace .aes key).runOn sealed = (.ok (), data)
      ∧ sealed.drop 16 = List.replicate 5 7 := by
  intro key iv data sealed
  have hengine : SoundEngine .aes key iv := soundEngine .aes key rfl
  have hok : ((encryptInPlace .aes key).runOn data).1 = .ok () :=
    (hengine.encrypt.succeeds data).mpr ⟨List.cons_ne_nil _ _, .inl rfl⟩
  have hwhole : data.length / Cipher.aes.blockSize * Cipher.aes.blockSize
      = 16 := by decide
  have hrest := hengine.encrypt.rest data
  rw [hwhole] at hrest
  exact ⟨rfl, hengine, hengine.decrypt_encrypt data hok, hrest⟩

end Cipher
end GameArchive
