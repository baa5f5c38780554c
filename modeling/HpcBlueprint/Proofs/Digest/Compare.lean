/-
  Comparing digests is comparing texts.

  The comparison collects the bits in which two byte strings differ.  It collects none exactly if
  the byte strings are the same, and the bytes of a text tell which text it is.
-/
import HpcBlueprint.Digest.Compare

namespace HpcBlueprint.Digest

/-! ## Bytes -/

theorem toList_loop (bs : ByteArray) (i : Nat) (front : List UInt8) :
    ByteArray.toList.loop bs i front = front.reverse ++ bs.data.toList.drop i := by
  fun_induction ByteArray.toList.loop bs i front with
  | case1 i front h ih =>
      have hi : i < bs.data.toList.length := by simpa using h
      have hget : bs.get! i = bs.data.toList[i] := by
        simp [ByteArray.get!, getElem!_pos bs.data i h]
      rw [ih, List.reverse_cons, List.append_assoc, List.singleton_append, hget,
        List.drop_eq_getElem_cons hi]
  | case2 i front h =>
      rw [List.drop_eq_nil_of_le (by simpa using h), List.append_nil]

/-- The bytes of a text tell which text it is. -/
theorem toUTF8_toList_inj {a b : String} (h : a.toUTF8.toList = b.toUTF8.toList) : a = b := by
  rw [ByteArray.toList, ByteArray.toList, toList_loop, toList_loop, List.reverse_nil,
    List.nil_append, List.nil_append, List.drop_zero, List.drop_zero, Array.toList_inj] at h
  exact String.toByteArray_inj.mp (ByteArray.ext h)

/-! ## Differences -/

/-- Bits that were collected stay collected, and a pair of bytes adds none exactly if the two are
    the same. -/
theorem foldl_difference_eq_zero_iff {pairs : List (UInt8 × UInt8)} {acc : UInt8} :
    pairs.foldl (fun acc (a, b) => acc ||| (a ^^^ b)) acc = 0 ↔
      acc = 0 ∧ ∀ pair ∈ pairs, pair.1 = pair.2 := by
  induction pairs generalizing acc with
  | nil => simp
  | cons pair rest ih =>
      rw [List.foldl_cons, ih, UInt8.or_eq_zero_iff, UInt8.xor_eq_zero_iff, and_assoc,
        List.forall_mem_cons]

/-- Byte strings of equal length differ in no bits exactly if they are the same. -/
theorem difference_eq_zero_iff {xs ys : List UInt8} (hlength : xs.length = ys.length) :
    difference xs ys = 0 ↔ xs = ys := by
  rw [difference, foldl_difference_eq_zero_iff]
  constructor
  · rintro ⟨-, hpairs⟩
    refine List.ext_getElem hlength fun i hx hy => ?_
    have hi : i < (xs.zip ys).length := by rw [List.length_zip]; omega
    have hpair := hpairs _ (List.getElem_mem hi)
    rwa [List.getElem_zip] at hpair
  · rintro rfl
    refine ⟨rfl, fun pair hpair => ?_⟩
    obtain ⟨i, hi, rfl⟩ := List.mem_iff_getElem.mp hpair
    rw [List.getElem_zip]

/-! ## Texts -/

/-- The comparison is about the bytes of the two texts. -/
theorem sameDigest_iff_toList {a b : String} :
    sameDigest a b = true ↔ a.toUTF8.toList = b.toUTF8.toList := by
  unfold sameDigest
  dsimp only
  split
  · -- texts of different lengths are told apart before any byte is looked at
    rename_i hlength
    have hne : a.toUTF8.toList.length ≠ b.toUTF8.toList.length := by simpa using hlength
    exact ⟨nofun, fun h => absurd (congrArg List.length h) hne⟩
  · rename_i hlength
    have heq : a.toUTF8.toList.length = b.toUTF8.toList.length := by simpa using hlength
    rw [beq_iff_eq, difference_eq_zero_iff heq]

/-- Texts that the comparison takes for the same are the same. -/
theorem eq_of_sameDigest {a b : String} (h : sameDigest a b = true) : a = b :=
  toUTF8_toList_inj (sameDigest_iff_toList.mp h)

/-- A text is the same as itself. -/
theorem sameDigest_self (a : String) : sameDigest a a = true :=
  sameDigest_iff_toList.mpr rfl

/-- Whatever two texts hold and however long they are, the comparison tells whether they are the
    same. -/
theorem sameDigest_iff_eq (a b : String) : sameDigest a b = true ↔ a = b := by
  constructor
  · exact eq_of_sameDigest
  · rintro rfl
    exact sameDigest_self a

end HpcBlueprint.Digest
