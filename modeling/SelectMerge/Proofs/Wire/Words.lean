import Mathlib.Algebra.Order.Group.Nat
import Mathlib.Tactic.Ring
import SelectMerge.Wire.Bytes

/-!
# Words and texts as bytes

A word is written in base 256, so it is read back as long as it has no more digits than its width
(`toNat_ofNat`, `ofNat_toNat`, and for signed words `toInt32_ofInt32`), and a text is read back from
its own bytes (`text?_ofText`). Digits of one width that stand for one number are the same
(`toNat_injective`).
-/

namespace SelectMerge.Bytes

/-! ## Digits -/

@[simp] theorem length_ofNat (width n : Nat) : (ofNat width n).length = width := by
  induction width with
  | zero => rfl
  | succ width ih => simp [ofNat, ih]

theorem toNat_append (as bs : Bytes) :
    toNat (as ++ bs) = toNat as * 256 ^ bs.length + toNat bs := by
  have hfold : ∀ (bs : Bytes) (n : Nat), bs.foldl (fun n b => n * 256 + b.toNat) n =
      n * 256 ^ bs.length + bs.foldl (fun n b => n * 256 + b.toNat) 0 := by
    intro bs
    induction bs with
    | nil => simp
    | cons b bs ih =>
      intro n
      rw [List.foldl_cons, List.foldl_cons, ih, ih (0 * 256 + b.toNat), List.length_cons]
      ring
  rw [toNat, List.foldl_append, hfold]
  rfl

theorem toNat_ofNat (width n : Nat) : toNat (ofNat width n) = n % 256 ^ width := by
  induction width with
  | zero => simp [ofNat, toNat, Nat.mod_one]
  | succ width ih =>
    have hcons : ofNat (width + 1) n = [UInt8.ofNat (n / 256 ^ width)] ++ ofNat width n := by
      rw [ofNat, Nat.shiftRight_eq_div_pow, Nat.pow_mul]
      rfl
    have hdigit : toNat [UInt8.ofNat (n / 256 ^ width)] = n / 256 ^ width % 256 := by
      simp [toNat]
    rw [hcons, toNat_append, hdigit, ih, length_ofNat, Nat.mod_pow_succ]
    ring

theorem toNat_cons (b : UInt8) (bs : Bytes) :
    toNat (b :: bs) = b.toNat * 256 ^ bs.length + toNat bs := by
  have := toNat_append [b] bs
  simpa [toNat] using this

theorem toNat_lt (bs : Bytes) : toNat bs < 256 ^ bs.length := by
  induction bs with
  | nil => simp [toNat]
  | cons b bs ih =>
    have hb : b.toNat + 1 ≤ 256 := b.toNat_lt
    calc toNat (b :: bs) = b.toNat * 256 ^ bs.length + toNat bs := toNat_cons b bs
      _ < b.toNat * 256 ^ bs.length + 256 ^ bs.length := by omega
      _ = (b.toNat + 1) * 256 ^ bs.length := by ring
      _ ≤ 256 * 256 ^ bs.length := Nat.mul_le_mul_right _ hb
      _ = 256 ^ (b :: bs).length := by rw [List.length_cons]; ring

theorem toNat_injective {as bs : Bytes} (hlen : as.length = bs.length)
    (h : toNat as = toNat bs) : as = bs := by
  induction as generalizing bs with
  | nil => exact (List.length_eq_zero_iff.mp hlen.symm).symm
  | cons a as ih =>
    cases bs with
    | nil => cases hlen
    | cons b bs =>
      have hlen : as.length = bs.length := Nat.succ.inj hlen
      have ha := toNat_lt as
      have hb := toNat_lt bs
      rw [toNat_cons, toNat_cons, ← hlen] at h
      rw [← hlen] at hb
      obtain ⟨hhead, htail⟩ : a.toNat = b.toNat ∧ toNat as = toNat bs := by
        have hpos := Nat.pow_pos (n := as.length) (show 0 < 256 by decide)
        have hdiv := congrArg (· / 256 ^ as.length) h
        have hmod := congrArg (· % 256 ^ as.length) h
        simp only [Nat.mul_comm _ (256 ^ as.length), Nat.mul_add_div hpos, Nat.div_eq_of_lt ha,
          Nat.div_eq_of_lt hb, Nat.add_zero] at hdiv
        simp only [Nat.mul_add_mod', Nat.mod_eq_of_lt ha, Nat.mod_eq_of_lt hb] at hmod
        exact ⟨hdiv, hmod⟩
      rw [UInt8.toNat_inj.mp hhead, ih hlen htail]

theorem ofNat_toNat {bs : Bytes} {width : Nat} (h : bs.length = width) :
    ofNat width (toNat bs) = bs := by
  apply toNat_injective (by rw [length_ofNat, h])
  rw [toNat_ofNat, ← h, Nat.mod_eq_of_lt (toNat_lt bs)]

/-! ## Words -/

theorem toInt32_ofInt32 (x : Int32) : toInt32 (ofInt32 x) = x := by
  have hlt : x.toUInt32.toNat < 256 ^ 4 := x.toUInt32.toNat_lt
  rw [toInt32, ofInt32, toNat_ofNat, Nat.mod_eq_of_lt hlt, UInt32.ofNat_toNat]
  exact x.toInt32_toUInt32

theorem toInt64_ofInt64 (x : Int64) : toInt64 (ofInt64 x) = x := by
  have hlt : x.toUInt64.toNat < 256 ^ 8 := x.toUInt64.toNat_lt
  rw [toInt64, ofInt64, toNat_ofNat, Nat.mod_eq_of_lt hlt, UInt64.ofNat_toNat]
  exact x.toInt64_toUInt64

theorem ofInt32_toInt32 {bs : Bytes} (h : bs.length = 4) : ofInt32 (toInt32 bs) = bs := by
  have hlt : toNat bs < 256 ^ 4 := h ▸ toNat_lt bs
  rw [ofInt32, toInt32, UInt32.toUInt32_toInt32, UInt32.toNat_ofNat_of_lt' hlt, ofNat_toNat h]

theorem ofInt32_eq_ofNat {x : Int32} (h : 0 ≤ x.toInt) :
    ofInt32 x = ofNat 4 x.toInt.toNat ∧ x.toInt.toNat ≤ wireLimit := by
  have hle : 0 ≤ x := Int32.le_iff_toInt_le.mpr h
  have hlt := x.toInt_lt
  refine ⟨by rw [ofInt32, Int32.toNat_toUInt32_of_le hle]; rfl, ?_⟩
  unfold wireLimit
  omega

theorem toInt_toInt32_ofNat {n : Nat} (h : n ≤ wireLimit) : (toInt32 (ofNat 4 n)).toInt = n := by
  have hlt : n < 2 ^ 31 := by
    unfold wireLimit at h
    omega
  rw [toInt32, toNat_ofNat, Nat.mod_eq_of_lt (by omega), UInt32.toInt32_ofNat']
  exact Int32.toInt_ofNat_of_lt hlt

/-! ## Texts -/

theorem toList_eq (bs : ByteArray) : bs.toList = bs.data.toList := by
  have hloop : ∀ i acc, ByteArray.toList.loop bs i acc = acc.reverse ++ bs.data.toList.drop i := by
    intro i acc
    fun_induction ByteArray.toList.loop bs i acc with
    | case1 i acc hi ih =>
      have hi' : i < bs.data.toList.length := hi
      have hget : bs.get! i = bs.data.toList[i] := getElem!_pos bs.data i hi
      rw [ih, List.drop_eq_getElem_cons hi', List.reverse_cons, hget]
      simp
    | case2 i acc hi =>
      have hi' : bs.data.toList.length ≤ i := Nat.not_lt.mp hi
      rw [List.drop_of_length_le hi', List.append_nil]
  simp [ByteArray.toList, hloop]

theorem text?_ofText (s : String) : text? (ofText s) = some s := by
  have hbytes : (⟨(ofText s).toArray⟩ : ByteArray) = s.toByteArray := by
    rw [ofText, toList_eq]
    rfl
  rw [text?, hbytes, String.fromUTF8?, dif_pos s.isValidUTF8]
  rfl

theorem ofText_of_text? {bs : Bytes} {s : String} (h : text? bs = some s) : ofText s = bs := by
  rw [text?, String.fromUTF8?] at h
  split at h
  · cases h
    rw [ofText, toList_eq]
    rfl
  · cases h

/-! ## Runs of bytes -/

theorem ofLength_eq_ok {n : Nat} (h : n ≤ wireLimit) : ofLength n = .ok (ofNat 4 n) := if_pos h

theorem blob_eq_ok_iff {bs out : Bytes} :
    blob bs = .ok out ↔ bs.length ≤ wireLimit ∧ out = ofNat 4 bs.length ++ bs := by
  rw [blob, ofLength]
  split
  · rename_i h
    simp [h, bind, Except.bind, pure, Except.pure, eq_comm]
  · rename_i h
    simp [h, bind, Except.bind]

end SelectMerge.Bytes
