import Mathlib
import Supervisor.Text

/-!
# Characters and widths of texts

- `Text.Of p s`: every byte of a text belongs to a class. Texts are put together and so are
  their classes (`of_append`, `of_join`).
- `Text.Ink`: the class that almost everything in a message belongs to. Numbers are inked in
  every format.
- `Text.width`: the number of bytes. A number has as many as its format says, unless its
  digits are more.
-/

namespace Supervisor.Text

variable {p q : UInt8 → Prop} {s t : String}

theorem bytes_empty : bytes "" = [] := rfl

theorem bytes_append (s t : String) : bytes (s ++ t) = bytes s ++ bytes t := by
  rw [bytes, String.toByteArray_append, ByteArray.data_append, Array.toList_append]
  rfl

/-- Characters that are one byte each, such as those of a text that is spelled out. -/
theorem bytes_ofList {cs : List Char} (h : cs.all (·.toNat.blt 0x80) = true) :
    bytes (String.ofList cs) = cs.map (·.val.toUInt8) := by
  rw [bytes, String.toByteArray_ofList, List.utf8Encode, List.toList_data_toByteArray]
  induction cs with
  | nil => rfl
  | cons c cs ih =>
    rw [List.all_cons, Bool.and_eq_true, Nat.blt_eq] at h
    have hsize : c.utf8Size = 1 :=
      Char.utf8Size_eq_one_iff.mpr (UInt32.le_iff_toNat_le.mpr (Nat.le_of_lt_succ h.1))
    rw [List.flatMap_cons, String.utf8EncodeChar_eq_singleton hsize, ih h.2, List.map_cons]
    rfl

/-! ## Classes -/

/-- Every byte of the text belongs to the class. -/
def Of (p : UInt8 → Prop) (s : String) : Prop :=
  ∀ byte ∈ bytes s, p byte

theorem of_append : Of p (s ++ t) ↔ Of p s ∧ Of p t := by
  rw [Of, bytes_append]
  exact List.forall_mem_append

theorem of_empty : Of p "" := by
  intro byte hbyte
  rw [bytes_empty] at hbyte
  cases hbyte

theorem of_join {parts : List String} (h : ∀ s ∈ parts, Of p s) : Of p (String.join parts) := by
  induction parts with
  | nil => exact of_empty
  | cons s parts ih =>
    rw [String.join_cons, of_append]
    exact ⟨h s List.mem_cons_self, ih fun t ht => h t (List.mem_cons_of_mem s ht)⟩

theorem Of.mono (h : Of p s) (hpq : ∀ byte, p byte → q byte) : Of q s :=
  fun byte hbyte => hpq byte (h byte hbyte)

/-- Whether a character is one byte of a class. -/
def within (p : UInt8 → Prop) [DecidablePred p] (c : Char) : Bool :=
  c.toNat.blt 0x80 && p c.val.toUInt8

theorem of_ofList [DecidablePred p] {cs : List Char} (h : cs.all (within p) = true) :
    Of p (String.ofList cs) := by
  have hwithin (c : Char) (hc : c ∈ cs) : c.toNat.blt 0x80 = true ∧ p c.val.toUInt8 := by
    have hboth := List.all_eq_true.mp h c hc
    rwa [within, Bool.and_eq_true, decide_eq_true_iff] at hboth
  intro byte hbyte
  rw [bytes_ofList (List.all_eq_true.mpr fun c hc => (hwithin c hc).1)] at hbyte
  obtain ⟨c, hc, rfl⟩ := List.mem_map.mp hbyte
  exact (hwithin c hc).2

/-- The printable characters but for the star. -/
def Ink (byte : UInt8) : Prop :=
  0x20 ≤ byte ∧ byte ≤ 0x7e ∧ byte ≠ 0x2a

instance : DecidablePred Ink :=
  fun _ => inferInstanceAs (Decidable (_ ∧ _))

/-! ## Digits -/

/-- The digits of any base up to sixteen are inked. -/
theorem all_toDigits {base : Nat} (hpos : 0 < base) (hle : base ≤ 16) (n : Nat) :
    (Nat.toDigits base n).all (within Ink) = true := by
  have hdigit : ∀ n < 16, within Ink n.digitChar = true := by decide
  have hcore : ∀ fuel n ds, ds.all (within Ink) = true →
      (Nat.toDigitsCore base fuel n ds).all (within Ink) = true := by
    intro fuel
    induction fuel with
    | zero => exact fun _ _ hds => hds
    | succ fuel ih =>
      intro n ds hds
      have hcons : ((n % base).digitChar :: ds).all (within Ink) = true := by
        rw [List.all_cons, hdigit _ (Nat.lt_of_lt_of_le (Nat.mod_lt n hpos) hle), hds]
        rfl
      rw [Nat.toDigitsCore]
      split
      · exact hcons
      · exact ih _ _ hcons
  exact hcore _ _ _ rfl

theorem all_padLeft {c : Char} {ds : List Char} (hc : within Ink c = true)
    (hds : ds.all (within Ink) = true) (width : Nat) :
    (padLeft width c ds).all (within Ink) = true := by
  rw [padLeft, List.all_append, hds, Bool.and_true, List.all_eq_true]
  intro d hd
  rwa [List.eq_of_mem_replicate hd]

/-! ## Inked numbers -/

theorem inked_decimal (n : Nat) : Of Ink (decimal n) :=
  of_ofList (all_toDigits (by decide) (by decide) n)

theorem inked_decimalRight (width n : Nat) : Of Ink (decimalRight width n) :=
  of_ofList (all_padLeft rfl (all_toDigits (by decide) (by decide) n) width)

theorem inked_hexPadded (width n : Nat) : Of Ink (hexPadded width n) :=
  of_ofList (all_padLeft rfl (all_toDigits (by decide) (by decide) n) width)

theorem inked_hex (n : Nat) : Of Ink (hex n) :=
  of_append.mpr ⟨of_ofList rfl, of_ofList (all_toDigits (by decide) (by decide) n)⟩

theorem inked_address (n : Nat) : Of Ink (address n) :=
  of_append.mpr ⟨of_ofList rfl, inked_hexPadded 16 n⟩

/-! ## Widths -/

/-- The number of bytes of a text. -/
def width (s : String) : Nat :=
  (bytes s).length

theorem width_append (s t : String) : width (s ++ t) = width s + width t := by
  rw [width, bytes_append, List.length_append]
  rfl

theorem width_ofList {cs : List Char} (h : cs.all (within Ink) = true) :
    width (String.ofList cs) = cs.length := by
  have hascii : cs.all (·.toNat.blt 0x80) = true := by
    refine List.all_eq_true.mpr fun c hc => ?_
    have hboth := List.all_eq_true.mp h c hc
    rw [within, Bool.and_eq_true] at hboth
    exact hboth.1
  rw [width, bytes_ofList hascii, List.length_map]

theorem length_padLeft (width : Nat) (c : Char) (ds : List Char) :
    (padLeft width c ds).length = max width ds.length := by
  rw [padLeft, List.length_append, List.length_replicate]
  omega

/-- Digits that are padded take the width that was asked for, unless they are more. -/
theorem width_padded {base n width : Nat} {c : Char} (hc : within Ink c = true)
    (hbase : 1 < base) (hle : base ≤ 16) (hwidth : 0 < width) (h : n < base ^ width) :
    Text.width (String.ofList (padLeft width c (Nat.toDigits base n))) = width := by
  have hdigits := (Nat.length_toDigits_le_iff hbase hwidth).mpr h
  rw [width_ofList (all_padLeft hc (all_toDigits (by omega) hle n) width), length_padLeft,
    Nat.max_eq_left hdigits]

theorem width_digits_le {base n width : Nat} (hbase : 1 < base) (hle : base ≤ 16)
    (hwidth : 0 < width) (h : n < base ^ width) :
    Text.width (String.ofList (Nat.toDigits base n)) ≤ width := by
  rw [width_ofList (all_toDigits (by omega) hle n)]
  exact (Nat.length_toDigits_le_iff hbase hwidth).mpr h

theorem width_hexPadded {width n : Nat} (hwidth : 0 < width) (h : n < 16 ^ width) :
    Text.width (hexPadded width n) = width :=
  width_padded rfl (by decide) (by decide) hwidth h

theorem width_decimal_le {width n : Nat} (hwidth : 0 < width) (h : n < 10 ^ width) :
    Text.width (decimal n) ≤ width :=
  width_digits_le (by decide) (by decide) hwidth h

theorem width_hex_le {width n : Nat} (hwidth : 0 < width) (h : n < 16 ^ width) :
    Text.width (hex n) ≤ 2 + width := by
  rw [hex, width_append]
  exact Nat.add_le_add_left (width_digits_le (by decide) (by decide) hwidth h) 2

theorem width_address (a : UInt64) : width (address a.toNat) = 18 := by
  rw [address, width_append, width_hexPadded (by decide) a.toNat_lt]
  rfl

end Supervisor.Text
