/-
Decoding an encoded byte string.

The layers above the range coders are two walks over the same decisions:
each is taken in the context that both sides work out from the bytes so
far, and teaches that context the same lesson. So the two stay in step
(`Follows`): same table of chances, same output, the decoder's code at its
distance from the encoder's lower end.

The induction over the bytes runs forward, but each of its steps needs to
know that what is written in the end lies in the interval reached so far.
That fact comes from the end: whatever an encoder still writes, its later
interval lies in the earlier one (`Within`), so the last interval's
`Covers` reaches back to every state on the way.

Main statement: `decodeStream_encodeStream`.
-/
import GameArchive.Lzma.Encoder
import GameArchive.Lzma.Decoder
import GameArchive.Proofs.Lzma.Interval

namespace GameArchive.Lzma

variable {stream : Bytes} {e : Encoder} {d : Decoder} {out : Array UInt8}

-- ================================================ the table of chances

/-- Every context has a fair chance. -/
def FairTable (chances : Array Nat) : Prop :=
  ∀ i, Fair (chances.getD i even)

/-- All contexts begin even. -/
theorem fairTable_initial (p : Parameters) :
    FairTable (initialChances p) := by
  intro i
  have heven : (initialChances p).getD i even = even := by
    unfold initialChances
    rw [Array.getD_eq_getD_getElem?, Array.getElem?_replicate]
    split <;> rfl
  rw [heven]
  exact fair_even

/-- Adapting one context keeps the table fair. -/
theorem FairTable.set {chances : Array Nat} (ht : FairTable chances)
    (index : Nat) {chance : Nat} (hf : Fair chance) :
    FairTable (chances.setIfInBounds index chance) := by
  intro i
  rw [Array.getD_eq_getD_getElem?, Array.getElem?_setIfInBounds]
  split
  · split
    · exact hf
    · exact fair_even
  · rw [← Array.getD_eq_getD_getElem?]
    exact ht i

-- ===================================================== earlier and later

namespace Encoder

/-- The encoder's invariant: that of its coder, and fair chances. -/
structure Sound (e : Encoder) : Prop where
  coder : e.coder.Sound
  chances : FairTable e.chances

/-- The state of an encoder after `count` more decisions. -/
structure Within (count : Nat) (later earlier : Encoder) : Prop where
  sound : later.Sound
  covers : ∀ {stream : Bytes},
    later.coder.Covers stream → earlier.coder.Covers stream
  handled : later.coder.handled ≤ earlier.coder.handled + count

theorem Sound.refl (he : e.Sound) : e.Within 0 e :=
  ⟨he, id, Nat.le_refl _⟩

/-- Decisions add up. -/
theorem Within.trans {m n : Nat} {e₁ e₂ e₃ : Encoder}
    (h₃ : Within n e₃ e₂) (h₂ : Within m e₂ e₁) : Within (n + m) e₃ e₁ := by
  refine ⟨h₃.sound, fun hc => h₂.covers (h₃.covers hc), ?_⟩
  have := h₂.handled
  have := h₃.handled
  omega

/-- A decision hands on at most one byte. -/
theorem Sound.decide (he : e.Sound) (context : Context) (bit : Bool) :
    Within 1 (e.decide context bit) e :=
  ⟨⟨he.coder.encode (he.chances _) bit,
      he.chances.set _ ((he.chances _).adapt bit)⟩,
    fun hc => .of_encode he.coder (he.chances _) hc,
    RangeEncoder.handled_encode_le he.coder (he.chances _) bit⟩

/-- Writing bits along a tree makes one decision for each bit. -/
theorem Sound.writeTree (context : Nat → Context) (value count : Nat) :
    ∀ (node : Nat) {e : Encoder}, e.Sound →
      Within count (writeTree context value count node e) e := by
  induction count with
  | zero => intro node e he; exact he.refl
  | succ count ih =>
      intro node e he
      have hbit := he.decide (context node) (value.testBit count)
      exact (ih _ hbit.sound).trans hbit

/-- A literal takes nine decisions: that it is one, and its bits. -/
theorem Sound.writeLiteral (he : e.Sound) (p : Parameters)
    (position : Nat) (previous byte : UInt8) :
    Within 9 (e.writeLiteral p position previous byte) e := by
  have hmatch := he.decide (.isMatch 0 (p.aligned position)) false
  exact (Sound.writeTree _ _ 8 _ hmatch.sound).trans hmatch

/-- Literals take nine each. -/
theorem Sound.writeLiterals (p : Parameters) (data : Bytes) :
    ∀ (position : Nat) (previous : UInt8) {e : Encoder}, e.Sound →
      Within (9 * data.length) (writeLiterals p position previous data e)
        e := by
  induction data with
  | nil => intro position previous e he; exact he.refl
  | cons byte rest ih =>
      intro position previous e he
      have hbyte := he.writeLiteral p position previous byte
      exact (ih _ _ hbyte.sound).trans hbyte

/-- Decisions at even chance keep the coder's invariant, cut its interval,
and hand on one byte each at most. -/
theorem encode_even (stream : Bytes) (bits : List Bool) :
    ∀ {coder : RangeEncoder}, coder.Sound →
      let last := bits.foldl (fun c bit => c.encode even bit) coder
      last.Sound ∧ (last.Covers stream → coder.Covers stream)
        ∧ last.handled ≤ coder.handled + bits.length := by
  induction bits with
  | nil => intro coder hs; exact ⟨hs, id, Nat.le_refl _⟩
  | cons bit bits ih =>
      intro coder hs
      obtain ⟨hsound, hcovers, hhandled⟩ := ih (hs.encode fair_even bit)
      have := RangeEncoder.handled_encode_le hs fair_even bit
      refine ⟨hsound, fun hc => .of_encode hs fair_even (hcovers hc), ?_⟩
      simp only [List.foldl_cons, List.length_cons] at hhandled ⊢
      omega

/-- What an encoder writes in the end lies in the interval it had before
the end marker, and the marker's 42 decisions and the last four bytes are
all that it adds. -/
theorem Sound.writeEnd (he : e.Sound) (p : Parameters) (position : Nat) :
    e.coder.Covers (e.writeEnd p position).finish.toList
      ∧ (e.writeEnd p position).finish.toList.length
          ≤ e.coder.handled + 46 := by
  have hmatch := he.decide (.isMatch 0 (p.aligned position)) true
  obtain ⟨hsound, hcovers, hhandled⟩ := encode_even
    (e.writeEnd p position).finish.toList endMarker hmatch.sound.coder
  have hlast := RangeEncoder.covers_finish hsound
  refine ⟨hmatch.covers (hcovers hlast), ?_⟩
  have hsafe := hsound.carrySafe (Nat.lt_of_lt_of_le (by decide) hsound.wide)
  have hmarker : endMarker.length = 41 := rfl
  have hmatched := hmatch.handled
  calc (e.writeEnd p position).finish.toList.length
      = (e.writeEnd p position).handled + 4 :=
        (RangeEncoder.bigEndian_finish hsafe).2
    _ ≤ e.coder.handled + 46 := by
        unfold Encoder.writeEnd
        omega

end Encoder

-- ============================================================== in step

/-- The decoder has decoded `out`, after which the encoder was in the given
state. -/
structure Follows (stream : Bytes) (e : Encoder) (out : Array UInt8)
    (d : Decoder) : Prop where
  coder : d.coder.Mirrors e.coder stream
  chances : d.chances = e.chances
  state : d.state = 0
  out : d.out = out

namespace Decoder

/-- A reader that succeeds hands its result and its decoder on. -/
theorem bind_ok {α β : Type} {x : Reader α} {f : α → Reader β}
    {d d' : Decoder} {a : α} (hx : x d = .ok (a, d')) :
    (x >>= f) d = f a d' := by
  show (x d >>= fun r => f r.1 r.2) = f a d'
  rw [hx]
  rfl

/-- A decision is read as it was written, and teaches both sides alike. -/
theorem decision_follows (he : e.Sound) (hd : Follows stream e out d)
    {context : Context} {bit : Bool}
    (hc : (e.decide context bit).coder.Covers stream) :
    ∃ d', decision context d = .ok (bit, d')
      ∧ Follows stream (e.decide context bit) out d' := by
  obtain ⟨coder', hdecode, hmirrors⟩ := RangeDecoder.decode_mirrors
    he.coder (he.chances context.index) hd.coder hc
  rw [← hd.chances] at hdecode
  unfold decision
  dsimp only
  rw [hdecode]
  refine ⟨_, rfl, hmirrors, ?_, hd.state, hd.out⟩
  dsimp only
  rw [hd.chances]
  rfl

/-- The bits of a number, from some bit on, in one number less. -/
theorem shiftRight_eq_double (n count : Nat) :
    n >>> count = 2 * n >>> (count + 1) + (n.testBit count).toNat := by
  rw [Nat.shiftRight_succ, Nat.testBit_eq_decide_div_mod_eq,
    ← Nat.shiftRight_eq_div_pow]
  by_cases hodd : n >>> count % 2 = 1
  · simp only [hodd, decide_true, Bool.toNat_true]
    omega
  · simp only [hodd, decide_false, Bool.toNat_false]
    omega

/-- Bits are read below the node they were written below: the result has
the node above them. -/
theorem readTree_follows (context : Nat → Context) {value result : Nat}
    (count : Nat) :
    ∀ (node : Nat) {e : Encoder} {d : Decoder}, e.Sound →
      Follows stream e out d →
      result >>> count = node →
      (∀ i < count, result.testBit i = value.testBit i) →
      (Encoder.writeTree context value count node e).coder.Covers stream →
      ∃ d', readTree context count node d = .ok (result, d')
        ∧ Follows stream (Encoder.writeTree context value count node e)
            out d' := by
  induction count with
  | zero =>
      intro node e d _ hd hnode _ _
      rw [Nat.shiftRight_zero] at hnode
      exact ⟨d, by rw [hnode]; rfl, hd⟩
  | succ count ih =>
      intro node e d he hd hnode hbits hc
      have hwithin := he.decide (context node) (value.testBit count)
      have hrest := Encoder.Sound.writeTree context value count
        (2 * node + (value.testBit count).toNat) hwithin.sound
      obtain ⟨d₁, hread, hd₁⟩ := decision_follows he hd (hrest.covers hc)
      have hnext : result >>> count
          = 2 * node + (value.testBit count).toNat := by
        rw [shiftRight_eq_double, hnode, hbits count (by omega)]
      obtain ⟨d₂, htree, hd₂⟩ := ih _ hwithin.sound hd₁ hnext
        (fun i hi => hbits i (by omega)) hc
      refine ⟨d₂, ?_, hd₂⟩
      show (decision (context node) >>= fun bit =>
        readTree context count (2 * node + bit.toNat)) d = _
      rw [bind_ok hread, htree]

/-- A byte is read as it was written. -/
theorem readLiteral_follows (p : Parameters) (byte : UInt8)
    (he : e.Sound) (hd : Follows stream e out d)
    (hc : (Encoder.writeTree (.literal (p.literalSelector out.size
        (out.getD (out.size - 1) 0))) byte.toNat 8 1 e).coder.Covers
          stream) :
    ∃ d', readLiteral p d = .ok (.literal byte, d')
      ∧ Follows stream (Encoder.writeTree (.literal (p.literalSelector
          out.size (out.getD (out.size - 1) 0))) byte.toNat 8 1 e) out d' := by
  have hlt := byte.toNat_lt
  have hnode : (256 + byte.toNat) >>> 8 = 1 := by
    rw [Nat.shiftRight_eq_div_pow]
    omega
  obtain ⟨d', hread, hd'⟩ := readTree_follows _ 8 1 he hd hnode
    (fun i hi => Nat.testBit_two_pow_add_gt hi byte.toNat) hc
  refine ⟨d', ?_, hd'⟩
  have hbyte : UInt8.ofNat (256 + byte.toNat) = byte := by
    apply UInt8.toNat_inj.mp
    rw [UInt8.toNat_ofNat']
    omega
  unfold readLiteral
  rw [bind_ok (show (get : Reader Decoder) d = .ok (d, d) from rfl)]
  rw [hd.state, hd.out, if_pos (by decide), bind_ok hread, hbyte]
  rfl

/-- A literal symbol is read as it was written. -/
theorem readSymbol_follows (p : Parameters) (byte : UInt8)
    (he : e.Sound) (hd : Follows stream e out d)
    (hc : (e.writeLiteral p out.size (out.getD (out.size - 1) 0)
        byte).coder.Covers stream) :
    ∃ d', readSymbol p d = .ok (.literal byte, d')
      ∧ Follows stream (e.writeLiteral p out.size
          (out.getD (out.size - 1) 0) byte) out d' := by
  have hwithin := he.decide (.isMatch 0 (p.aligned out.size)) false
  have hrest := Encoder.Sound.writeTree (.literal (p.literalSelector
    out.size (out.getD (out.size - 1) 0))) byte.toNat 8 1 hwithin.sound
  obtain ⟨d₁, hmatch, hd₁⟩ := decision_follows he hd (hrest.covers hc)
  obtain ⟨d₂, hliteral, hd₂⟩ :=
    readLiteral_follows p byte hwithin.sound hd₁ hc
  refine ⟨d₂, ?_, hd₂⟩
  unfold readSymbol
  rw [bind_ok (show (get : Reader Decoder) d = .ok (d, d) from rfl)]
  rw [hd.state, hd.out, bind_ok hmatch]
  exact hliteral

/-- Where only literals were read, another one adds its byte and leaves the
state as it is. -/
theorem apply_literal (p : Parameters) (byte : UInt8)
    (hstate : d.state = 0) :
    apply p (.literal byte) d
      = .ok { d with state := 0, out := d.out.push byte } := by
  simp [apply, Symbol.nextState, hstate]

theorem last_push (out : Array UInt8) (byte : UInt8) :
    (out.push byte).getD ((out.push byte).size - 1) 0 = byte := by
  simp [Array.getD_eq_getD_getElem?]

/-- Bytes are decoded as they were encoded. -/
theorem run_follows (p : Parameters) (data : Bytes) :
    ∀ (out : Array UInt8) {e : Encoder} {d : Decoder}, e.Sound →
      Follows stream e out d →
      (e.writeLiterals p out.size (out.getD (out.size - 1) 0)
        data).coder.Covers stream →
      ∃ d', run p (out.size + data.length) data.length d = .ok d'
        ∧ d'.out.toList = out.toList ++ data := by
  induction data with
  | nil =>
      intro out e d _ hd _
      exact ⟨d, rfl, by rw [hd.out, List.append_nil]⟩
  | cons byte rest ih =>
      intro out e d he hd hc
      -- What covers the end of the stream covers every state before it.
      have hwithin := he.writeLiteral p out.size
        (out.getD (out.size - 1) 0) byte
      have hrest := Encoder.Sound.writeLiterals p rest (out.size + 1) byte
        hwithin.sound
      obtain ⟨d₁, hsymbol, hd₁⟩ :=
        readSymbol_follows p byte he hd (hrest.covers hc)
      have hd₂ : Follows stream (e.writeLiteral p out.size
          (out.getD (out.size - 1) 0) byte) (out.push byte)
          { d₁ with state := 0, out := d₁.out.push byte } :=
        ⟨hd₁.coder, hd₁.chances, rfl, by rw [hd₁.out]⟩
      have hcovers : (Encoder.writeLiterals p (out.push byte).size
          ((out.push byte).getD ((out.push byte).size - 1) 0) rest
          (e.writeLiteral p out.size (out.getD (out.size - 1) 0)
            byte)).coder.Covers stream := by
        rw [last_push, Array.size_push]
        exact hc
      obtain ⟨d', hrun, hout⟩ := ih _ hwithin.sound hd₂ hcovers
      refine ⟨d', ?_, by rw [hout, Array.toList_push]; simp⟩
      have hmore : d.out.size < out.size + (byte :: rest).length := by
        rw [hd.out, List.length_cons]
        omega
      rw [List.length_cons] at hmore ⊢
      unfold run
      rw [if_pos hmore, hsymbol]
      dsimp only
      rw [apply_literal p byte hd₁.state]
      dsimp only
      rw [Array.size_push] at hrun
      rw [← hrun]
      congr 1
      omega

end Decoder

-- ====================================================== whole streams

/-- The first state of an encoder of standard parameters. -/
theorem sound_start :
    Encoder.Sound ⟨.start, initialChances standardParameters⟩ :=
  ⟨RangeEncoder.sound_start, fairTable_initial _⟩

/-- The encoder of standard parameters after the bytes of a string. -/
def encoded (data : Bytes) : Encoder :=
  Encoder.writeLiterals standardParameters 0 0 data
    ⟨.start, initialChances standardParameters⟩

/-- The length of a compressed stream is bounded by the length of the data. -/
theorem encoded_within (data : Bytes) :
    Encoder.Within (9 * data.length) (encoded data)
      ⟨.start, initialChances standardParameters⟩ :=
  Encoder.Sound.writeLiterals _ _ _ _ sound_start

/-- The stream of a byte string lies in the interval of its bytes. -/
theorem covers_encodeStream (data : Bytes) :
    (encoded data).coder.Covers (encodeStream data)
      ∧ (encodeStream data).length ≤ (encoded data).coder.handled + 46 :=
  (encoded_within data).sound.writeEnd _ _

/-- A stream is no longer than nine bytes for each byte that it encodes, and
47 more. -/
theorem length_encodeStream_le (data : Bytes) :
    (encodeStream data).length ≤ 9 * data.length + 47 := by
  have hlength := (covers_encodeStream data).2
  have hhandled := (encoded_within data).handled
  have hstart : RangeEncoder.start.handled = 1 := rfl
  dsimp only at hhandled
  omega

/-- The stream of a byte string decodes to it. -/
theorem decodeStream_encodeStream (data : Bytes) :
    decodeStream .standard data.length (encodeStream data) = .ok data := by
  have hcovers := (covers_encodeStream data).1
  have hstart := (encoded_within data).covers hcovers
  obtain ⟨coder, hcoder, hmirrors⟩ := RangeDecoder.start_mirrors hstart
  obtain ⟨d', hrun, hout⟩ := Decoder.run_follows standardParameters data
    #[]
    (d := ⟨coder, initialChances standardParameters, 0, 0, 0, 0, 0, #[]⟩)
    sound_start ⟨hmirrors, rfl, rfl, rfl⟩ hcovers
  have hparameters : Properties.standard.parameters
      = .ok standardParameters := rfl
  have hdecoder : Decoder.start standardParameters (encodeStream data)
      = .ok ⟨coder, initialChances standardParameters, 0, 0, 0, 0, 0, #[]⟩ := by
    unfold Decoder.start
    rw [hcoder]
    rfl
  rw [Array.size_empty, Nat.zero_add] at hrun
  have hsize : d'.out.size = data.length := by
    rw [← Array.length_toList, hout]
    rfl
  unfold decodeStream
  simp only [hparameters, hdecoder, hrun, bind, Except.bind]
  rw [if_pos hsize, hout]
  rfl

end GameArchive.Lzma
