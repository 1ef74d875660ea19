import BinMatch.Proofs.Catalog
import BinMatch.Proofs.Comparison.Outcome
import BinMatch.Proofs.Image
import BinMatch.Proofs.X86.Call

/-!
# Resolved thunks

A call to an address without a name gets one if the bytes there are a jump to a named
address.  One call adds at most one entry, behind those there were, and looks up where
the jump leads in the names it started from; so a run adds the entries of the called
thunks, whatever the order of the calls.
-/

namespace BinMatch

open X86

/-! ## Thunks in an image -/

/-- The bytes at `address` of an image that starts at `virtualBase` are a jump to
`dest`. -/
def JumpsTo (image : Image) (virtualBase address dest : Int) : Prop :=
  ∃ front distance rest,
    image.bytes = front ++ (jumpOpcode :: distance) ++ rest ∧
    virtualBase + front.length = address ∧ distance.length = 4 ∧
    dest = (address + 5 + Reader.littleEndian distance) % 0x100000000

section Destination

variable {image : Image} {virtualBase address : Int} {distance : List UInt8}

theorem decodeFirst_jump (h : distance.length = 4) (address : Int) :
    decodeFirst (jumpOpcode :: distance) address =
      some ((Encoding.jump distance).atAddress (address % addressCount) 5) := by
  refine decodeFirst_eq_some_iff.mpr ⟨_, [], _, (List.append_nil _).symm, encodes_jump h, ?_⟩
  rw [List.length_cons, h]

theorem thunkDestination_of_range
    (hcovers : image.covers (address - virtualBase) thunkLength = true)
    (hrange : image.range (address - virtualBase) thunkLength = jumpOpcode :: distance)
    (hlength : distance.length = 4) :
    thunkDestination image virtualBase address =
      some ((address + 5 + Reader.littleEndian distance) % 0x100000000) := by
  have hcode : (image.bytes.drop (address - virtualBase).toNat).take thunkLength =
      jumpOpcode :: distance := hrange
  have htarget := target_instruction (Encoding.jump distance) address
    (Int.bmod (Reader.littleEndian distance) (Nat.pow 2 32)) 5
  simp only [thunkDestination, if_pos hcovers, hcode, List.head?_cons, if_true,
    decodeFirst_jump hlength, (encodes_jump hlength).settled.toInstruction]
  show some (((Encoding.jump distance).instruction (address % addressCount) 5).target
    (signedWithin 4 (Int.bmod (Reader.littleEndian distance) (Nat.pow 2 32)))) = _
  rw [htarget]
  have hwidth : Nat.pow 2 32 = 0x100000000 := rfl
  have hdistance : Int.bmod (Reader.littleEndian distance) 0x100000000 %
      (0x100000000 : Nat) = Reader.littleEndian distance % (0x100000000 : Nat) :=
    Int.bmod_emod
  rw [hwidth, Option.some.injEq]
  omega

theorem thunkDestination_eq_some_iff {dest : Int} :
    thunkDestination image virtualBase address = some dest ↔
      JumpsTo image virtualBase address dest := by
  constructor
  · intro h
    have hcovers : image.covers (address - virtualBase) thunkLength = true := by
      by_contra hcovers
      simp [thunkDestination, hcovers] at h
    have hlength := length_range hcovers
    obtain ⟨front, rest, hbytes, hfront⟩ := exists_eq_append_range hcovers
    cases hrange : image.range (address - virtualBase) thunkLength with
    | nil =>
      rw [hrange, List.length_nil, thunkLength] at hlength
      omega
    | cons b distance =>
      have hcode : (image.bytes.drop (address - virtualBase).toNat).take thunkLength =
          b :: distance := hrange
      have hjump : b = jumpOpcode := by
        by_contra hother
        simp [thunkDestination, hcovers, hcode, hother] at h
      subst hjump
      have hdistance : distance.length = 4 := by
        rw [hrange, List.length_cons, thunkLength] at hlength
        omega
      rw [thunkDestination_of_range hcovers hrange hdistance, Option.some.injEq] at h
      exact ⟨front, distance, rest, hrange ▸ hbytes, by omega, hdistance, h.symm⟩
  · rintro ⟨front, distance, rest, hbytes, rfl, hdistance, rfl⟩
    have hoffset : virtualBase + front.length - virtualBase = front.length := by omega
    have hsize : ((jumpOpcode :: distance).length : Int) = thunkLength := by
      rw [List.length_cons, hdistance]
      rfl
    obtain ⟨hcovers, hrange⟩ := range_of_append hbytes
    rw [hsize, ← hoffset] at hcovers hrange
    exact thunkDestination_of_range hcovers hrange hdistance

end Destination

/-! ## Entries for thunks -/

/-- What a thunk at `address` is called by, if it leads to something named. -/
def thunkName? [Decoder] (image : Image) (virtualBase : Int) (names : AddressMap)
    (address : Int) : Option Definition :=
  (thunkDestination image virtualBase address).bind names.get?

theorem thunkName?_eq_some_iff {image : Image} {virtualBase : Int} {names : AddressMap}
    {address : Int} {d : Definition} :
    thunkName? image virtualBase names address = some d ↔
      ∃ dest, JumpsTo image virtualBase address dest ∧ names.get? dest = some d := by
  simp only [thunkName?, Option.bind_eq_some_iff, thunkDestination_eq_some_iff]

section Fold

variable [Decoder] (image : Image) (virtualBase : Int) (names : AddressMap)

/-- The names with those of the thunks that instructions call, remarks left out. -/
def withThunks (found : AddressMap) (insns : List Instruction) : AddressMap :=
  insns.foldl (fun found insn => (addThunk image virtualBase names found insn).value) found

variable {image virtualBase names}

theorem value_addThunk (found : AddressMap) (insn : Instruction) :
    (addThunk image virtualBase names found insn).value =
      match callTarget? insn with
      | none => found
      | some target =>
        if found.contains target then found
        else
          match thunkName? image virtualBase names target with
          | none => found
          | some d => found.put target d := by
  simp only [addThunk, thunkName?]
  cases callTarget? insn with
  | none => rfl
  | some target =>
    simp only
    split
    · rfl
    · cases (thunkDestination image virtualBase target).bind names.get? <;> rfl

/-- A call leaves what is found and adds at most its target. -/
theorem get?_addThunk (found : AddressMap) (insn : Instruction) (address : Int) :
    (addThunk image virtualBase names found insn).value.get? address =
      (found.get? address).or
        (if callTarget? insn = some address then
          thunkName? image virtualBase names address
        else none) := by
  rw [value_addThunk]
  cases htarget : callTarget? insn with
  | none => simp
  | some target =>
    by_cases hcontains : found.contains target = true
    · by_cases haddress : target = address
      · subst haddress
        obtain ⟨d, hd⟩ := Option.isSome_iff_exists.mp hcontains
        simp [hcontains, hd]
      · simp [hcontains, haddress]
    · have hfresh : found.get? target = none := by
        simpa [Catalog.contains] using hcontains
      by_cases haddress : target = address
      · subst haddress
        cases hname : thunkName? image virtualBase names target with
        | none => simp [hcontains, hname]
        | some d => simp [hcontains, hname, hfresh, Catalog.get?_put_self]
      · cases hname : thunkName? image virtualBase names target with
        | none => simp [hcontains, haddress, hname]
        | some d => simp [hcontains, haddress, hname, Catalog.get?_put, Ne.symm haddress]

/-- What is found stays, and every called thunk is looked up in the same names. -/
theorem get?_withThunks (found : AddressMap) (insns : List Instruction) (address : Int) :
    (withThunks image virtualBase names found insns).get? address =
      (found.get? address).or
        (if ∃ insn ∈ insns, callTarget? insn = some address then
          thunkName? image virtualBase names address
        else none) := by
  -- `found` grows from call to call, but thunks are looked up in the fixed `names`.
  induction insns generalizing found with
  | nil => simp [withThunks]
  | cons insn insns ih =>
    have hstep : withThunks image virtualBase names found (insn :: insns) =
        withThunks image virtualBase names
          (addThunk image virtualBase names found insn).value insns := rfl
    rw [hstep, ih, get?_addThunk, Option.or_assoc]
    by_cases hfirst : callTarget? insn = some address
    · by_cases hothers : ∃ insn ∈ insns, callTarget? insn = some address <;>
        simp [hfirst, hothers]
    · simp [hfirst]

variable (image virtualBase names) in
/-- The entries that there were come first, in their order. -/
theorem entries_prefix_withThunks (found : AddressMap) (insns : List Instruction) :
    found.entries <+: (withThunks image virtualBase names found insns).entries := by
  induction insns generalizing found with
  | nil => exact List.prefix_rfl
  | cons insn insns ih =>
    refine List.IsPrefix.trans ?_ (ih (addThunk image virtualBase names found insn).value)
    rw [value_addThunk]
    cases callTarget? insn with
    | none => exact List.prefix_rfl
    | some target =>
      by_cases hcontains : found.contains target = true
      · simp [hcontains]
      · have hfresh : found.get? target = none := by
          simpa [Catalog.contains] using hcontains
        cases hname : thunkName? image virtualBase names target with
        | none => simp [hcontains, hname]
        | some d =>
          simp only [hcontains, hname, Bool.false_eq_true, if_false,
            Catalog.entries_put_of_get?_eq_none hfresh]
          exact List.prefix_append _ _

theorem namesShown_eq (opts : ComparisonOptions) (code : List UInt8) (address : Int) :
    namesShown opts image virtualBase names code address =
      if opts.resolveThunks then
        withThunks image virtualBase names names (decodeAll code address)
      else names := by
  rw [namesShown, Logged.value_foldlM]
  rfl

/-- A listing shows by its name whatever had one. -/
theorem get?_namesShown {address : Int} {d : Definition} (h : names.get? address = some d)
    (opts : ComparisonOptions) (code : List UInt8) (base : Int) :
    (namesShown opts image virtualBase names code base).get? address = some d := by
  rw [namesShown_eq]
  cases opts.resolveThunks with
  | false => exact h
  | true => rw [if_pos rfl, get?_withThunks, h, Option.some_or]

end Fold

/-- One of the instructions calls a thunk at `address`, which has no name, and the thunk
leads to `d`. -/
structure ThunkEntry (image : Image) (virtualBase : Int) (names : AddressMap)
    (insns : List Instruction) (address : Int) (d : Definition) : Prop where
  called : ∃ insn ∈ insns, callTarget? insn = some address
  unnamed : names.get? address = none
  leads : ∃ dest, JumpsTo image virtualBase address dest ∧ names.get? dest = some d

section Resolution

variable {image : Image} {virtualBase : Int} {names : AddressMap}
  {insns : List Instruction} {address : Int} {d : Definition}

/-- A name is found where there was one or where a thunk is called. -/
theorem get?_withThunks_eq_some_iff :
    (withThunks image virtualBase names names insns).get? address = some d ↔
      names.get? address = some d ∨
        ThunkEntry image virtualBase names insns address d := by
  rw [get?_withThunks, Option.or_eq_some_iff, Option.ite_none_right_eq_some,
    thunkName?_eq_some_iff]
  constructor
  · rintro (hnamed | ⟨hunnamed, hcalled, hleads⟩)
    · exact .inl hnamed
    · exact .inr ⟨hcalled, hunnamed, hleads⟩
  · rintro (hnamed | hentry)
    · exact .inl hnamed
    · exact .inr ⟨hentry.unnamed, hentry.called, hentry.leads⟩

/-- Behind the entries that there were stand those of the called thunks. -/
theorem exists_entries_withThunks (image : Image) (virtualBase : Int)
    (names : AddressMap) (insns : List Instruction) :
    ∃ added, (withThunks image virtualBase names names insns).entries =
        names.entries ++ added ∧ (added.map (·.1)).Nodup ∧
      ∀ address d, (address, d) ∈ added ↔
        ThunkEntry image virtualBase names insns address d := by
  obtain ⟨added, hadded⟩ := entries_prefix_withThunks image virtualBase names names insns
  have hnodup := (withThunks image virtualBase names names insns).nodup
  rw [← hadded, List.map_append, List.nodup_append] at hnodup
  obtain ⟨-, hadded_nodup, hdisjoint⟩ := hnodup
  refine ⟨added, hadded.symm, hadded_nodup, fun address d => ?_⟩
  have hmem : (address, d) ∈ names.entries ++ added ↔
      names.get? address = some d ∨
        ThunkEntry image virtualBase names insns address d := by
    rw [hadded, ← Catalog.get?_eq_some_iff, get?_withThunks_eq_some_iff]
  constructor
  · intro hin
    rcases hmem.mp (List.mem_append_right _ hin) with hnamed | hentry
    · exact absurd rfl (hdisjoint _ (List.mem_map_of_mem (Catalog.get?_eq_some_iff.mp hnamed))
        _ (List.mem_map_of_mem hin))
    · exact hentry
  · intro hentry
    rcases List.mem_append.mp (hmem.mpr (.inr hentry)) with hnamed | hin
    · rw [← Catalog.get?_eq_some_iff, hentry.unnamed] at hnamed
      cases hnamed
    · exact hin

theorem get?_withThunks_perm {insns' : List Instruction} (h : insns'.Perm insns)
    (address : Int) :
    (withThunks image virtualBase names names insns').get? address =
      (withThunks image virtualBase names names insns).get? address := by
  simp only [get?_withThunks, h.mem_iff]

theorem line_withThunks {insn : Instruction} (hinsn : insn.CallsOnce)
    (h : ¬ ∃ target d, callTarget? insn = some target ∧
      ThunkEntry image virtualBase names insns target d) (opts : LineOptions) :
    insn.line opts (withThunks image virtualBase names names insns) =
      insn.line opts names := by
  refine hinsn.line_eq fun target htarget => ?_
  have hunchanged : ∀ d, (withThunks image virtualBase names names insns).get? target =
      some d ↔ names.get? target = some d := by
    intro d
    rw [get?_withThunks_eq_some_iff, or_iff_left]
    exact fun hentry => h ⟨target, d, htarget, hentry⟩
  exact Option.ext hunchanged

end Resolution

/-- Resolving thunks keeps all entries and adds one for each called thunk that leads to a
named function, the entry of that function; the lines of the calls of these thunks show
it, and the other lines stay as they are. -/
theorem resolveThunks_exact (image : Image) (virtualBase : Int) (names : AddressMap)
    {code : List UInt8} {base : Int} {insns : List Instruction}
    (h : (Disassembly.ofCode code base).complete = .ok insns) :
    ∃ found added,
      (resolveThunks image virtualBase names code base).result = .ok found ∧
      found.entries = names.entries ++ added ∧ (added.map (·.1)).Nodup ∧
      (∀ address d, (address, d) ∈ added ↔
        ThunkEntry image virtualBase names insns address d) ∧
      (∀ insns' : List Instruction, insns'.Perm insns → ∀ address,
        (insns'.foldlM (addThunk image virtualBase names) names).value.get? address =
          found.get? address) ∧
      ∀ opts,
        renderLines opts names code base = .ok (insns.map (·.line opts names)) ∧
        renderLines opts found code base = .ok (insns.map (·.line opts found)) ∧
        ∀ insn ∈ insns,
          (∀ target d, callTarget? insn = some target →
            ThunkEntry image virtualBase names insns target d →
            insn.operands.map (insn.operandText opts found) =
              [Symbol.baseName d.name]) ∧
          ((¬ ∃ target d, callTarget? insn = some target ∧
              ThunkEntry image virtualBase names insns target d) →
            insn.line opts found = insn.line opts names) := by
  have hdecoded : decodeAll code base = insns := (complete_eq_ok_iff.mp h).1
  have hcalls : ∀ insn ∈ insns, insn.CallsOnce := hdecoded ▸ callsOnce_of_mem_decodeAll
  have hrender : ∀ opts names, renderLines opts names code base =
      .ok (insns.map (·.line opts names)) := by
    intro opts names
    rw [renderLines, h]
    rfl
  obtain ⟨added, hentries, hnodup, hmem⟩ :=
    exists_entries_withThunks image virtualBase names insns
  refine ⟨withThunks image virtualBase names names insns, added, ?_, hentries, hnodup, hmem,
    fun insns' hperm address => ?_, fun opts => ⟨hrender opts names, hrender opts _, ?_⟩⟩
  · rw [result_resolveThunks, h, Logged.value_foldlM]
    show Except.ok (withThunks image virtualBase names names (decodeAll code base)) = _
    rw [hdecoded]
  · rw [Logged.value_foldlM]
    exact get?_withThunks_perm hperm address
  · intro insn hinsn
    refine ⟨fun target d htarget hentry => ?_, fun hother =>
      line_withThunks (hcalls insn hinsn) hother opts⟩
    have hfound := get?_withThunks_eq_some_iff.mpr (.inr hentry)
    rw [(hcalls insn hinsn).operandTexts htarget, Instruction.callLabel, hfound]

/-- Of two thunks, the first leads to `f` and the second to the first: the first gets a
name and the second does not. -/
theorem resolveThunks_of_chain :
    let image : Image :=
      ⟨[0xE8, 0x06, 0x00, 0x00, 0x00, 0xE8, 0x06, 0x00, 0x00, 0x00, 0xC3,
        0xE9, 0xF0, 0x0F, 0x00, 0x00, 0xE9, 0xF6, 0xFF, 0xFF, 0xFF]⟩
    let names : AddressMap := .ofDefinitions [⟨"f@@YAXXZ", 0x402000, none⟩]
    let code := image.bytes.take 11
    ∃ insns found, (Disassembly.ofCode code 0x401000).complete = .ok insns ∧
      (resolveThunks image 0x401000 names code 0x401000).result = .ok found ∧
      found.get? 0x40100B = names.get? 0x402000 ∧ found.get? 0x401010 = none := by
  intro image names code
  have hchecked :
      code.length ≤ Disassembly.endOf 0x401000 (decodeAll code 0x401000) - 0x401000 ∧
        (∃ insn ∈ decodeAll code 0x401000, callTarget? insn = some 0x40100B) ∧
        thunkDestination image 0x401000 0x40100B = some 0x402000 ∧
        thunkDestination image 0x401000 0x401010 = some 0x40100B := by
    decide +kernel +zetaReduce
  obtain ⟨hend, hcalled, hfirst, hsecond⟩ := hchecked
  have hcomplete := complete_eq_ok_iff.mpr ⟨rfl, hend⟩
  obtain ⟨found, added, hresult, hentries, -, hadded, -, -⟩ :=
    resolveThunks_exact image 0x401000 names hcomplete
  refine ⟨_, found, hcomplete, hresult, ?_, ?_⟩
  · have hnamed : names.get? 0x402000 = some ⟨"f@@YAXXZ", 0x402000, none⟩ := rfl
    rw [hnamed, Catalog.get?_eq_some_iff, hentries]
    refine List.mem_append_right _ ((hadded _ _).mpr ⟨hcalled, rfl, 0x402000, ?_, hnamed⟩)
    exact thunkDestination_eq_some_iff.mp hfirst
  · rw [Option.eq_none_iff_forall_not_mem]
    intro d hd
    rw [Option.mem_def, Catalog.get?_eq_some_iff, hentries, List.mem_append,
      ← Catalog.get?_eq_some_iff, hadded] at hd
    obtain hnamed | ⟨-, -, dest, hjump, hnamed⟩ := hd
    · cases hnamed
    · rw [← thunkDestination_eq_some_iff, hsecond] at hjump
      cases hjump
      cases hnamed

end BinMatch
