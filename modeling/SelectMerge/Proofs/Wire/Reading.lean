import Mathlib.Data.List.Forall2
import SelectMerge.Proofs.Wire.Words

/-!
# What readers take

A reader takes an encoding if it returns the value behind it from wherever it stands, and stops at
its end (`Reads`). Readers one after another take encodings one after another (`Reads.bind`); a
length also asks for room behind it, which the encoding of what it counts provides
(`Reads.length_bind`).
-/

namespace SelectMerge.Decoder

variable {α β : Type} {d : Decoder α} {f : α → Decoder β} {bs bs' : Bytes} {x : α} {y : β}

/-- Whether the reader takes these bytes for a value, whatever follows them. -/
def Reads (d : Decoder α) (bs : Bytes) (x : α) : Prop :=
  ∀ offset rest, d.run ⟨offset, bs ++ rest⟩ = .ok (x, ⟨offset + bs.length, rest⟩)

theorem run_bind_ok {c c' : Cursor} (h : d.run c = .ok (x, c')) (f : α → Decoder β) :
    (d >>= f).run c = (f x).run c' := by
  rw [StateT.run_bind, h]
  rfl

theorem run_bind_error {c : Cursor} {e : DecodeError} (h : d.run c = .error e)
    (f : α → Decoder β) : (d >>= f).run c = .error e := by
  rw [StateT.run_bind, h]
  rfl

theorem Reads.run'_eq (h : d.Reads bs x) (offset : Nat) (rest : Bytes) :
    d.run' ⟨offset, bs ++ rest⟩ = .ok x := by
  show (fun r => r.1) <$> d.run ⟨offset, bs ++ rest⟩ = _
  rw [h offset rest]
  rfl

theorem Reads.runAll_eq (h : d.Reads bs x) : d.runAll bs = .ok x := by
  have hrun := h 0 []
  rw [List.append_nil] at hrun
  rw [runAll, hrun]
  rfl

theorem reads_pure (x : α) : (pure x : Decoder α).Reads [] x := fun _ _ => rfl

theorem Reads.bind (hd : d.Reads bs x) (hf : (f x).Reads bs' y) :
    (d >>= f).Reads (bs ++ bs') y := by
  intro offset rest
  rw [List.append_assoc, run_bind_ok (hd offset (bs' ++ rest)), hf, List.length_append,
    Nat.add_assoc]

theorem Reads.map (hd : d.Reads bs x) (g : α → β) : (g <$> d).Reads bs (g x) := by
  intro offset rest
  rw [StateT.run_map, hd offset rest]
  rfl

/-! ## Bytes -/

theorem run_take {n offset : Nat} {rest : Bytes} (h : n ≤ rest.length) :
    (take n).run ⟨offset, rest⟩ = .ok (rest.take n, ⟨offset + n, rest.drop n⟩) := if_pos h

theorem reads_take {n : Nat} (h : bs.length = n) : (take n).Reads bs bs := by
  intro offset rest
  rw [run_take (by rw [List.length_append]; omega), ← h, List.take_left, List.drop_left]

theorem reads_int32 (x : Int32) : int32.Reads (Bytes.ofInt32 x) x := by
  have h := (reads_take (Bytes.length_ofNat 4 x.toUInt32.toNat)).map Bytes.toInt32
  rwa [← Bytes.ofInt32, Bytes.toInt32_ofInt32] at h

theorem reads_int64 (x : Int64) : int64.Reads (Bytes.ofInt64 x) x := by
  have h := (reads_take (Bytes.length_ofNat 8 x.toUInt64.toNat)).map Bytes.toInt64
  rwa [← Bytes.ofInt64, Bytes.toInt64_ofInt64] at h

/-! ## Lengths -/

theorem run_length {n itemSize offset : Nat} {rest : Bytes} (hn : n ≤ wireLimit)
    (hroom : n * itemSize ≤ rest.length) :
    (length itemSize).run ⟨offset, Bytes.ofNat 4 n ++ rest⟩ = .ok (n, ⟨offset + 4, rest⟩) := by
  have hword : int32.run ⟨offset, Bytes.ofNat 4 n ++ rest⟩ =
      .ok (Bytes.toInt32 (Bytes.ofNat 4 n), ⟨offset + 4, rest⟩) := by
    have h := (reads_take (Bytes.length_ofNat 4 n)).map Bytes.toInt32 offset rest
    rwa [Bytes.length_ofNat] at h
  have hsign : ¬ (n : Int) < 0 := by omega
  have hcursor : (get : Decoder Cursor).run ⟨offset + 4, rest⟩ =
      .ok (⟨offset + 4, rest⟩, ⟨offset + 4, rest⟩) := rfl
  rw [length, run_bind_ok hword, Bytes.toInt_toInt32_ofNat hn]
  simp only [hsign, if_false, Int.toNat_natCast]
  rw [run_bind_ok hcursor, if_pos hroom]
  rfl

/-- A length is taken together with what follows it, which is long enough for what it counts. -/
theorem Reads.length_bind {f : Nat → Decoder β} {n itemSize : Nat} (hn : n ≤ wireLimit)
    (hroom : n * itemSize ≤ bs.length) (hf : (f n).Reads bs y) :
    (length itemSize >>= f).Reads (Bytes.ofNat 4 n ++ bs) y := by
  intro offset rest
  have hrest : n * itemSize ≤ (bs ++ rest).length := by
    rw [List.length_append]
    omega
  rw [List.append_assoc, run_bind_ok (run_length hn hrest), hf, List.length_append,
    Bytes.length_ofNat, Nat.add_assoc]

theorem reads_blob (h : bs.length ≤ wireLimit) :
    blob.Reads (Bytes.ofNat 4 bs.length ++ bs) bs :=
  .length_bind h (Nat.mul_one _).le (reads_take rfl)

theorem reads_text {s : String} (h : (Bytes.ofText s).length ≤ wireLimit) (what : String) :
    (text what).Reads (Bytes.ofNat 4 (Bytes.ofText s).length ++ Bytes.ofText s) s := by
  intro offset rest
  rw [text, run_bind_ok (reads_blob h offset rest), Bytes.text?_ofText]
  rfl

theorem reads_times {xs : List α} {parts : List Bytes}
    (h : List.Forall₂ (fun x bs => d.Reads bs x) xs parts) :
    (times d xs.length).Reads parts.flatten xs := by
  induction h with
  | nil => exact reads_pure []
  | @cons x bs xs parts hx _ ih =>
    have htail : (do return x :: (← times d xs.length) : Decoder (List α)).Reads
        parts.flatten (x :: xs) := ih.map fun xs => x :: xs
    exact hx.bind htail

end SelectMerge.Decoder
