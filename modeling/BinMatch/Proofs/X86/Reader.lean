import BinMatch.X86.Reader

/-!
# Consumed bytes

A reader that ends in a value has consumed the front of its code, and it ends in
the same value whatever stands behind that front.  Readers one after the other
consume one front after the other, and a number takes as many bytes as it has.
-/

namespace BinMatch.X86.Reader

variable {α β : Type} {r : Reader α} {f : α → Reader β}

protected theorem bind_assoc {γ : Type} (r : Reader α) (f : α → Reader β)
    (g : β → Reader γ) : (r.bind f).bind g = r.bind fun a => (f a).bind g := by
  induction r with
  | done value => rfl
  | fail => rfl
  | next ask ih => exact congrArg next (funext ih)

protected theorem bind_done (r : Reader α) : r.bind .done = r := by
  induction r with
  | done value => rfl
  | fail => rfl
  | next ask ih => exact congrArg next (funext ih)

instance : LawfulMonad Reader :=
  LawfulMonad.mk' Reader Reader.bind_done (fun _ _ => rfl) Reader.bind_assoc

theorem run_bind (r : Reader α) (f : α → Reader β) (code : List UInt8) :
    (r >>= f).run code = (r.run code).bind fun p => (f p.1).run p.2 := by
  show (Reader.bind r f).run code = _
  induction r generalizing code with
  | done value => rfl
  | fail => rfl
  | next ask ih =>
    cases code with
    | nil => rfl
    | cons b code => exact ih b code

/-- The reader consumes exactly `bytes` and ends in `value`. -/
def Reads (r : Reader α) (bytes : List UInt8) (value : α) : Prop :=
  ∀ more, r.run (bytes ++ more) = some (value, more)

theorem reads_pure (value : α) : (pure value : Reader α).Reads [] value :=
  fun _ => rfl

theorem reads_byte (b : UInt8) : byte.Reads [b] b :=
  fun _ => rfl

theorem reads_pure_iff {a value : α} {bytes : List UInt8} :
    (pure a : Reader α).Reads bytes value ↔ bytes = [] ∧ value = a := by
  constructor
  · intro h
    obtain ⟨hvalue, hbytes⟩ := Prod.mk.inj (Option.some.inj (h []))
    exact ⟨by rwa [List.append_nil] at hbytes, hvalue.symm⟩
  · rintro ⟨rfl, rfl⟩
    exact reads_pure value

theorem reads_byte_iff {b : UInt8} {bytes : List UInt8} :
    byte.Reads bytes b ↔ bytes = [b] := by
  constructor
  · intro h
    have hrun := h []
    rw [List.append_nil] at hrun
    cases bytes with
    | nil => simp [byte, run] at hrun
    | cons c bytes =>
      obtain ⟨rfl, rfl⟩ := Prod.mk.inj (Option.some.inj hrun)
      rfl
  · rintro rfl
    exact reads_byte b

theorem Reads.bind {front back : List UInt8} {a : α} {b : β}
    (hr : r.Reads front a) (hf : (f a).Reads back b) :
    (r >>= f).Reads (front ++ back) b := by
  intro more
  rw [List.append_assoc, run_bind, hr (back ++ more)]
  exact hf more

theorem Reads.result {bytes : List UInt8} {a : α} (h : r.Reads bytes a) (g : α → β) :
    (r >>= fun x => pure (g x)).Reads bytes (g a) := by
  intro more
  rw [run_bind, h more]
  rfl

/-- The bytes in front of those left over decide the value. -/
theorem exists_reads_of_run {code rest : List UInt8} {value : α}
    (h : r.run code = some (value, rest)) :
    ∃ bytes, code = bytes ++ rest ∧ r.Reads bytes value := by
  induction r generalizing code with
  | done v =>
    obtain ⟨rfl, rfl⟩ := Prod.mk.inj (Option.some.inj h)
    exact ⟨[], rfl, reads_pure _⟩
  | fail => simp [run] at h
  | next ask ih =>
    cases code with
    | nil => simp [run] at h
    | cons b code =>
      obtain ⟨bytes, rfl, hbytes⟩ := ih b h
      exact ⟨b :: bytes, rfl, hbytes⟩

/-- What two readers consume is the front of the first and that of the second. -/
theorem reads_bind_iff {bytes : List UInt8} {b : β} :
    (r >>= f).Reads bytes b ↔
      ∃ front back a, bytes = front ++ back ∧ r.Reads front a ∧ (f a).Reads back b := by
  constructor
  · intro h
    have hrun := h []
    rw [List.append_nil, run_bind, Option.bind_eq_some_iff] at hrun
    obtain ⟨⟨a, left⟩, hfirst, hsecond⟩ := hrun
    obtain ⟨front, rfl, hfront⟩ := exists_reads_of_run hfirst
    obtain ⟨back, rfl, hback⟩ := exists_reads_of_run hsecond
    exact ⟨front, back, a, by rw [List.append_nil], hfront, hback⟩
  · rintro ⟨front, back, a, rfl, hfront, hback⟩
    exact hfront.bind hback

/-! ## Values of a reader -/

/-- Every value in which the reader can end satisfies `P`. -/
def Yields (r : Reader α) (P : α → Prop) : Prop :=
  ∀ ⦃bytes value⦄, r.Reads bytes value → P value

section Yields

variable {P : α → Prop} {Q : β → Prop}

theorem yields_pure {value : α} (h : P value) : (pure value : Reader α).Yields P := by
  intro bytes v hreads
  rwa [(reads_pure_iff.mp hreads).2]

theorem yields_fail : (Reader.fail : Reader α).Yields P := by
  intro bytes value hreads
  exact absurd (hreads []) (by simp [run])

theorem yields_ofOption {value : Option α} (h : ∀ a, value = some a → P a) :
    (ofOption value).Yields P := by
  cases value with
  | none => exact yields_fail
  | some a => exact yields_pure (h a rfl)

theorem Yields.bind (hr : r.Yields P) (hf : ∀ a, P a → (f a).Yields Q) :
    (r >>= f).Yields Q := by
  intro bytes value hreads
  obtain ⟨front, back, a, -, ha, hvalue⟩ := reads_bind_iff.mp hreads
  exact hf a (hr ha) hvalue

/-- What the first reader ends in does not matter. -/
theorem yields_bind (hf : ∀ a, (f a).Yields Q) : (r >>= f).Yields Q := by
  intro bytes value hreads
  obtain ⟨front, back, a, -, -, hvalue⟩ := reads_bind_iff.mp hreads
  exact hf a hvalue

theorem yields_next {ask : UInt8 → Reader α} (hask : ∀ b, (ask b).Yields P) :
    (next ask).Yields P :=
  yields_bind (r := byte) hask

end Yields

/-! ## Numbers -/

/-- The number that bytes make, the least significant one first. -/
def littleEndian : List UInt8 → Nat
  | [] => 0
  | b :: bytes => b.toNat + 256 * littleEndian bytes

theorem reads_little (bytes : List UInt8) :
    (little bytes.length).Reads bytes (littleEndian bytes) := by
  induction bytes with
  | nil => exact reads_pure 0
  | cons b bytes ih =>
    exact (reads_byte b).bind (ih.result fun high => b.toNat + 256 * high)

theorem length_of_reads_little {n v : Nat} {bytes : List UInt8}
    (h : (little n).Reads bytes v) : bytes.length = n := by
  induction n generalizing v bytes with
  | zero => rw [(reads_pure_iff.mp h).1, List.length_nil]
  | succ n ih =>
    obtain ⟨first, others, low, rfl, hlow, hrest⟩ := reads_bind_iff.mp h
    obtain ⟨second, nothing, high, rfl, hhigh, hvalue⟩ := reads_bind_iff.mp hrest
    rw [(reads_pure_iff.mp hvalue).1, reads_byte_iff.mp hlow, List.append_nil,
      List.singleton_append, List.length_cons, ih hhigh]

theorem reads_littleSigned (bytes : List UInt8) :
    (littleSigned bytes.length).Reads bytes
      (Int.bmod (littleEndian bytes) (Nat.pow 2 (8 * bytes.length))) :=
  (reads_little bytes).result fun v : Nat => Int.bmod v (Nat.pow 2 (8 * bytes.length))

/-- Any bytes make a number. -/
theorem exists_reads_littleSigned (bytes : List UInt8) :
    ∃ d, (littleSigned bytes.length).Reads bytes d :=
  ⟨_, reads_littleSigned bytes⟩

theorem length_of_reads_littleSigned {n : Nat} {d : Int} {bytes : List UInt8}
    (h : (littleSigned n).Reads bytes d) : bytes.length = n := by
  obtain ⟨front, nothing, v, rfl, hv, hd⟩ := reads_bind_iff.mp h
  rw [(reads_pure_iff.mp hd).1, List.append_nil, length_of_reads_little hv]

end BinMatch.X86.Reader
