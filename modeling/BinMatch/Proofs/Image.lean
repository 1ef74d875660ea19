import BinMatch.Side

/-!
# Ranges of an image

A range that an image covers is a part of its bytes, and a slice is that part.
-/

namespace BinMatch

theorem covers_iff {image : Image} {offset size : Int} :
    image.covers offset size = true ↔
      (0 ≤ offset ∧ 0 ≤ size) ∧ offset + size ≤ image.bytes.length := by
  simp only [Image.covers, Bool.and_eq_true, decide_eq_true_eq]
  rfl

/-- The bytes of a range, as many of them as there are. -/
def Image.range (image : Image) (offset size : Int) : List UInt8 :=
  (image.bytes.drop offset.toNat).take size.toNat

theorem length_range {image : Image} {offset size : Int}
    (h : image.covers offset size = true) :
    ((image.range offset size).length : Int) = size := by
  obtain ⟨⟨hoffset, hsize⟩, hend⟩ := covers_iff.mp h
  simp only [Image.range, List.length_take, List.length_drop]
  omega

theorem slice_eq_ok_iff {image : Image} {name : String} {offset size : Int}
    {code : List UInt8} :
    image.slice name offset size = .ok code ↔
      image.covers offset size = true ∧ code = image.range offset size := by
  rw [Image.slice]
  by_cases hcovers : image.covers offset size = true
  · simp [hcovers, Image.range, eq_comm]
  · simp [hcovers]

theorem length_slice {image : Image} {name : String} {offset size : Int}
    {code : List UInt8} (h : image.slice name offset size = .ok code) :
    (code.length : Int) = size := by
  obtain ⟨hcovers, rfl⟩ := slice_eq_ok_iff.mp h
  exact length_range hcovers

/-- A covered range has bytes in front of it and behind it. -/
theorem exists_eq_append_range {image : Image} {offset size : Int}
    (h : image.covers offset size = true) :
    ∃ front rest, image.bytes = front ++ image.range offset size ++ rest ∧
      (front.length : Int) = offset := by
  obtain ⟨⟨hoffset, hsize⟩, hend⟩ := covers_iff.mp h
  refine ⟨image.bytes.take offset.toNat,
    (image.bytes.drop offset.toNat).drop size.toNat, ?_, ?_⟩
  · rw [Image.range, List.append_assoc, List.take_append_drop, List.take_append_drop]
  · rw [List.length_take]
    omega

theorem range_of_append {image : Image} {front middle rest : List UInt8}
    (h : image.bytes = front ++ middle ++ rest) :
    image.covers front.length middle.length = true ∧
      image.range front.length middle.length = middle := by
  constructor
  · rw [covers_iff, h]
    simp only [List.length_append]
    omega
  · rw [Image.range, h, Int.toNat_natCast, Int.toNat_natCast, List.append_assoc,
      List.drop_left, List.take_left]

theorem range_take {image : Image} {offset size size' : Int} (hle : size ≤ size') :
    image.range offset size = (image.range offset size').take size.toNat := by
  have hmin : min size.toNat size'.toNat = size.toNat := by omega
  rw [Image.range, Image.range, List.take_take, hmin]

theorem covers_of_le {image : Image} {offset size size' : Int}
    (h : image.covers offset size' = true) (hnonneg : 0 ≤ size) (hle : size ≤ size') :
    image.covers offset size = true := by
  rw [covers_iff] at h ⊢
  omega

/-- A slice takes no more from its image than the size and the bytes of a longer range. -/
theorem slice_congr {image image' : Image} {offset size size' : Int}
    (hsize : image'.size = image.size)
    (hrange : image'.range offset size' = image.range offset size') (hle : size ≤ size')
    (name : String) : image'.slice name offset size = image.slice name offset size := by
  have hcovers : image'.covers offset size = image.covers offset size := by
    rw [Image.covers, Image.covers, hsize]
  have hbytes : image'.range offset size = image.range offset size := by
    rw [range_take hle, hrange, range_take hle]
  rw [Image.range, Image.range] at hbytes
  rw [Image.slice, Image.slice, hcovers, hsize, hbytes]

/-- Of two ranges with one start the shorter one is the front of the other. -/
theorem range_prefix_iff {image : Image} {offset size size' : Int}
    (h : image.covers offset size = true) (hnonneg : 0 ≤ size') :
    image.range offset size <+: image.range offset size' ↔ size ≤ size' := by
  constructor
  · intro hprefix
    have hlength := length_range h
    have hle := hprefix.length_le
    have hbound : (image.range offset size').length ≤ size'.toNat := by
      rw [Image.range]
      exact List.length_take_le _ _
    omega
  · intro hle
    rw [range_take hle]
    exact List.take_prefix _ _

end BinMatch
