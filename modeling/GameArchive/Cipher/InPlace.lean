/-
The cipher engine on a buffer in place.

Buffer and key are checked before anything is written. Then one whole block
after the other is overwritten with what a step makes of it, and of what the
block before hands on. Where each block stands alone, what is handed on is of
no account; in a chain, it is the ciphertext of that block, which decryption
has to keep, since its place is taken.

Nothing undoes what has been written. That a failure leaves the buffer as it
was is a matter of the order of these steps.
-/
import GameArchive.Cipher

namespace GameArchive

-- ================================================================== steps

/-- What is made of a block, and of what the block before hands on: the
block that takes its place, and what that hands on. -/
abbrev BlockStep := (carried block : Bytes) → Bytes × Bytes

namespace BlockCipher

/-- Encrypts a block. -/
def encryptStep (c : BlockCipher) (chained : Bool) : BlockStep :=
  fun carried block =>
    if chained then
      let sealed := c.encrypt (block.xor carried)
      (sealed, sealed)
    else (c.encrypt block, carried)

/-- Decrypts a block. -/
def decryptStep (c : BlockCipher) (chained : Bool) : BlockStep :=
  fun carried block =>
    if chained then ((c.decrypt block).xor carried, block)
    else (c.decrypt block, carried)

end BlockCipher

-- ================================================================ buffers

/-- A buffer that is overwritten from its beginning on: the blocks that have
been written, the last one first, and the bytes behind them. -/
structure Buffer where
  written : List Bytes
  rest : Bytes

namespace Buffer

/-- A buffer in which nothing has been written. -/
def ofBytes (data : Bytes) : Buffer := ⟨[], data⟩

/-- What is in a buffer. -/
def bytes (b : Buffer) : Bytes := b.written.reverse.flatten ++ b.rest

/-- Overwrites the next block, of `size` bytes. -/
def overwrite (b : Buffer) (size : Nat) (block : Bytes) : Buffer :=
  ⟨block :: b.written, b.rest.drop size⟩

end Buffer

namespace Cipher

/-- Work on a buffer in place. If it fails, the buffer stays as it is by
then. -/
abbrev InPlace := ExceptT Fault (StateM Buffer)

namespace InPlace

/-- Does work on a buffer: how it ends, and what is in the buffer then. -/
def runOn (work : InPlace Unit) (data : Bytes) : Except Fault Unit × Bytes :=
  let (ending, after) := Id.run (work.run.run (.ofBytes data))
  (ending, after.bytes)

/-- Overwrites the next `count` blocks. -/
def sweep (size : Nat) (step : BlockStep) :
    (count : Nat) → (carried : Bytes) → InPlace Unit
  | 0, _ => return
  | count + 1, carried => do
    let buffer ← get
    let (block, next) := step carried (buffer.rest.take size)
    set (buffer.overwrite size block)
    sweep size step count next

end InPlace

-- ================================================================= engine

/-- Overwrites all whole blocks of a buffer, if buffer and key pass the
check. -/
def sweepBlocks (c : Cipher) (key : Bytes) (step : BlockStep) (carried : Bytes) :
    InPlace Unit := do
  let data := (← get).bytes
  liftExcept (c.check data key)
  InPlace.sweep c.blockSize step (data.length / c.blockSize) carried

/-- Encrypts a buffer in place, chains starting from zeros. -/
def encryptInPlace (c : Cipher) (key : Bytes) : InPlace Unit :=
  c.sweepBlocks key ((c.keyed key).encryptStep c.chains) zeroVector

/-- Decrypts a buffer in place; `iv` starts the chain of the chaining
ciphers. -/
def decryptFromInPlace (c : Cipher) (iv key : Bytes) : InPlace Unit :=
  c.sweepBlocks key ((c.keyed key).decryptStep c.chains) iv

/-- Decrypts a buffer in place, chains starting from zeros. -/
def decryptInPlace (c : Cipher) (key : Bytes) : InPlace Unit :=
  c.decryptFromInPlace zeroVector key

end Cipher
end GameArchive
