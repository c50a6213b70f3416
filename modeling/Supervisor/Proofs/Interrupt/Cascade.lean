import Supervisor.Proofs.Interrupt.Mirror

/-!
# The line the slave hangs on

Whatever the slave raises reaches the processor through line 2 of the master. A line of the
slave that is let through is therefore of use only while line 2 is let through as well.

- `Pic.Open`: a line is let through. `open_or`, `open_and_not`: what setting and clearing a
  bit of the mask does to it.
- `Pic.Operation.remask`: what an operation does to the mask, whatever the ports answer.
- `Pic.Cascaded`: line 2 is open if any line of the slave is. Masking line 2 itself is the
  one operation that can end this (`Cascaded.remask`), and it does unless all lines of the
  slave are masked (`slaveMasked_of_remask`).
- `cascaded_throughout_iff` is the main statement, about every sequence of operations.
-/

namespace Supervisor

namespace Pic

variable {mask : UInt16} {line other : UInt8}

/-! ## Lines and the mask -/

/-- A mask lets a line through. -/
def Open (mask : UInt16) (line : UInt8) : Prop :=
  mask &&& lineBit line = 0

instance : Decidable (Open mask line) :=
  inferInstanceAs (Decidable (mask &&& lineBit line = 0))

theorem open_iff (h : line.toNat < 16) :
    Open mask line ↔ mask.toBitVec.getLsbD line.toNat = false := by
  rw [Open, ← beq_iff_eq, and_lineBit mask h, Bool.not_eq_true']

/-- Setting the bit of a line closes that line. -/
theorem open_or (hline : line.toNat < 16) (hother : other.toNat < 16) :
    Open (mask ||| lineBit line) other ↔ other ≠ line ∧ Open mask other := by
  have hbit : (BitVec.twoPow 16 line.toNat).getLsbD other.toNat = decide (line = other) := by
    rw [BitVec.getLsbD_twoPow, decide_eq_true hline, Bool.true_and]
    exact decide_eq_decide.mpr UInt8.toNat_inj
  rw [open_iff hother, open_iff hother, UInt16.toBitVec_or, toBitVec_lineBit hline,
    BitVec.getLsbD_or, hbit, Bool.or_eq_false_iff, decide_eq_false_iff_not, and_comm, eq_comm]

/-- Clearing the bit of a line opens that line. -/
theorem open_and_not (hline : line.toNat < 16) (hother : other.toNat < 16) :
    Open (mask &&& ~~~ lineBit line) other ↔ other = line ∨ Open mask other := by
  have hbit : (~~~ BitVec.twoPow 16 line.toNat).getLsbD other.toNat = !decide (line = other) := by
    rw [BitVec.getLsbD_not, BitVec.getLsbD_twoPow, decide_eq_true hline, decide_eq_true hother]
    simp only [Bool.true_and]
    exact congrArg _ (decide_eq_decide.mpr UInt8.toNat_inj)
  rw [open_iff hother, open_iff hother, UInt16.toBitVec_and, UInt16.toBitVec_not,
    toBitVec_lineBit hline, BitVec.getLsbD_and, hbit, Bool.and_eq_false_iff, Bool.not_eq_false',
    decide_eq_true_iff, or_comm, eq_comm]

theorem not_open_allMasked (h : line.toNat < 16) : ¬ Open allMasked line := by
  rw [open_iff h]
  show ¬ (BitVec.allOnes 16).getLsbD line.toNat = false
  rw [BitVec.getLsbD_allOnes, decide_eq_true h]
  exact Bool.noConfusion

/-! ## Operations on the mask -/

/-- What an operation makes of the mask. -/
def Operation.remask (mask : UInt16) : Operation → UInt16
  | init _ _ | maskAll => allMasked
  | maskLine line => if lineCount ≤ line then mask else mask ||| lineBit line
  | unmaskLine line => if lineCount ≤ line then mask else unmasked mask line
  | acknowledge _ | inService | isSpurious _ | dismissSpurious _ => mask

theorem mask_perform (c : Pic) (op : Operation) (p : Ports) :
    ((c.perform op).run p).1.mask = op.remask c.mask := by
  cases op with
  | init master slave => rfl
  | maskLine line =>
    show ((c.maskLine line).run p).1.mask = _
    rw [maskLine, Operation.remask]
    split <;> rfl
  | unmaskLine line =>
    show ((c.unmaskLine line).run p).1.mask = _
    rw [unmaskLine, Operation.remask]
    split <;> rfl
  | maskAll => rfl
  | acknowledge line => rfl
  | inService => rfl
  | isSpurious line => rfl
  | dismissSpurious line => rfl

theorem mask_operations (ops : List Operation) (c : Pic) (p : Ports) :
    ((ops.foldlM perform c).run p).1.mask = ops.foldl Operation.remask c.mask := by
  induction ops generalizing c p with
  | nil => rfl
  | cons op ops ih =>
    rw [List.foldlM_cons, Ports.run_bind, ih, mask_perform]
    rfl

/-! ## The cascade -/

/-- A line of the slave. -/
structure OfSlave (line : UInt8) : Prop where
  ge : 8 ≤ line
  lt : line < lineCount

theorem OfSlave.toNat_lt (h : OfSlave line) : line.toNat < 16 :=
  UInt8.lt_iff_toNat_lt.mp h.lt

theorem OfSlave.ne_cascade (h : OfSlave line) : line ≠ cascadeLine := by
  rintro rfl
  exact absurd h.ge (by decide)

/-- If any line of the slave is let through, so is the line the slave hangs on. -/
def Cascaded (mask : UInt16) : Prop :=
  ∀ line, OfSlave line → Open mask line → Open mask cascadeLine

/-- All lines of the slave are masked. -/
def SlaveMasked (mask : UInt16) : Prop :=
  ∀ line, OfSlave line → ¬ Open mask line

theorem SlaveMasked.cascaded (h : SlaveMasked mask) : Cascaded mask :=
  fun line hslave hopen => absurd hopen (h line hslave)

theorem slaveMasked_allMasked : SlaveMasked allMasked :=
  fun _ hslave => not_open_allMasked hslave.toNat_lt

/-- Masking a line other than line 2 may only close lines of the slave. -/
theorem Cascaded.or (h : Cascaded mask) (hline : line.toNat < 16) (hne : line ≠ cascadeLine) :
    Cascaded (mask ||| lineBit line) := by
  intro other hslave hopen
  obtain ⟨-, hopen⟩ := (open_or hline hslave.toNat_lt).mp hopen
  exact (open_or hline (by decide)).mpr ⟨hne.symm, h other hslave hopen⟩

/-- Unmasking a line of the slave unmasks line 2 with it. -/
theorem Cascaded.unmasked (h : Cascaded mask) (hline : line.toNat < 16) :
    Cascaded (unmasked mask line) := by
  rw [Pic.unmasked]
  split
  · intro other _ _
    exact (open_and_not (by decide) (by decide)).mpr (.inl rfl)
  · next hmaster =>
    intro other hslave hopen
    rcases (open_and_not hline hslave.toNat_lt).mp hopen with rfl | hopen
    · exact absurd hslave.ge hmaster
    · exact (open_and_not hline (by decide)).mpr (.inr (h other hslave hopen))

/-- The step lemma. Only masking line 2 needs a condition. -/
theorem Cascaded.remask (h : Cascaded mask) (op : Operation)
    (hop : op = .maskLine cascadeLine → SlaveMasked mask) : Cascaded (op.remask mask) := by
  cases op with
  | init | maskAll => exact slaveMasked_allMasked.cascaded
  | maskLine line =>
    rw [Operation.remask]
    split
    · exact h
    · next hcount =>
      have hline : line.toNat < 16 := UInt8.lt_iff_toNat_lt.mp (UInt8.not_le.mp hcount)
      by_cases hcascade : line = cascadeLine
      · intro other hslave hopen
        have hmasked := hop (congrArg _ hcascade) other hslave
        exact absurd ((open_or hline hslave.toNat_lt).mp hopen).2 hmasked
      · exact h.or hline hcascade
  | unmaskLine line =>
    rw [Operation.remask]
    split
    · exact h
    · next hcount => exact h.unmasked (UInt8.lt_iff_toNat_lt.mp (UInt8.not_le.mp hcount))
  | acknowledge | inService | isSpurious | dismissSpurious => exact h

/-- With line 2 masked, nothing of the slave may be left open. -/
theorem slaveMasked_of_remask
    (h : Cascaded (Operation.remask mask (.maskLine cascadeLine))) : SlaveMasked mask := by
  intro line hslave hopen
  have hmasked : Open (mask ||| lineBit cascadeLine) line :=
    (open_or (by decide) hslave.toNat_lt).mpr ⟨hslave.ne_cascade, hopen⟩
  exact ((open_or (by decide) (by decide)).mp (h line hslave hmasked)).1 rfl

/-- The run lemma, for any start. -/
theorem Cascaded.operations {ops done : List Operation} (h : Cascaded mask) (hdone : done <+: ops)
    (hcut : ∀ earlier, earlier ++ [.maskLine cascadeLine] <+: ops →
      SlaveMasked (earlier.foldl Operation.remask mask)) :
    Cascaded (done.foldl Operation.remask mask) := by
  induction done generalizing mask ops with
  | nil => exact h
  | cons op done ih =>
    obtain ⟨rest, rfl⟩ := hdone
    refine ih (h.remask op ?_) (List.prefix_append done rest) ?_
    · rintro rfl
      exact hcut [] ⟨done ++ rest, rfl⟩
    · intro earlier hearlier
      exact hcut (op :: earlier) (List.cons_prefix_cons.mpr ⟨rfl, hearlier⟩)

/-- A driver that has done nothing yet is asked for any operations, on any lines. After every
one of them line 2 is open if any line of the slave is, exactly if line 2 is masked at
times only at which all lines of the slave are masked. -/
theorem cascaded_throughout_iff (p : Ports) (ops : List Operation) :
    (∀ done, done <+: ops → Cascaded ((done.foldlM perform {}).run p).1.mask) ↔
      ∀ done, done ++ [.maskLine cascadeLine] <+: ops →
        SlaveMasked ((done.foldlM perform {}).run p).1.mask := by
  simp only [mask_operations]
  constructor
  · intro h done hdone
    have hcascaded := h _ hdone
    rw [List.foldl_append] at hcascaded
    exact slaveMasked_of_remask hcascaded
  · intro h done hdone
    exact slaveMasked_allMasked.cascaded.operations hdone h

/-- Line 8 is let through, and then the line it comes in on is masked. -/
theorem masked_cascade_cut :
    ¬ Cascaded (([.unmaskLine 8, .maskLine cascadeLine].foldlM perform {}).run {}).1.mask := by
  rw [mask_operations]
  intro h
  have hslave : OfSlave 8 := ⟨by decide, by decide⟩
  exact absurd (h 8 hslave (by decide)) (by decide)

end Pic

end Supervisor
