/-!
# Byte readers

A reader is a decision tree: it stops with a value, fails, or asks for one more
byte.  What it does therefore depends on the bytes that it consumes and on
nothing behind them.
-/

namespace BinMatch.X86

inductive Reader (α : Type) where
  | done (value : α)
  | fail
  | next (ask : UInt8 → Reader α)

namespace Reader

variable {α β : Type}

protected def bind (r : Reader α) (f : α → Reader β) : Reader β :=
  match r with
  | .done value => f value
  | .fail => .fail
  | .next ask => .next fun b => (ask b).bind f

instance : Monad Reader where
  pure := .done
  bind := Reader.bind

/-- The value and the bytes left over, unless the reader fails or runs short. -/
def run : Reader α → List UInt8 → Option (α × List UInt8)
  | .done value, code => some (value, code)
  | .fail, _ => none
  | .next _, [] => none
  | .next ask, b :: code => (ask b).run code

def byte : Reader UInt8 :=
  .next .done

def little : Nat → Reader Nat
  | 0 => pure 0
  | n + 1 => do
    let low ← byte
    let high ← little n
    pure (low.toNat + 256 * high)

def littleSigned (n : Nat) : Reader Int := do
  let v ← little n
  pure (Int.bmod v (Nat.pow 2 (8 * n)))

/-- The value itself, or failure where there is none. -/
def ofOption : Option α → Reader α
  | some value => .done value
  | none => .fail

end Reader

end BinMatch.X86
