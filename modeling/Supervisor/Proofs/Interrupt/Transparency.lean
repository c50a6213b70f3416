import Supervisor.Interrupt.Entry

/-!
# Entry and return are transparent

Interrupted code must not notice that it was interrupted. What it had in its registers is
pushed in one order, which the frame's fields repeat and the pops undo in reverse, and no type
checks any of this: all depends on the words being in the right order.

- `Core.peekAll`: the words of memory from an address up. A frame is made of the words at its
  address (`Frame.toWords_load`), and is determined by them (`Frame.load_eq`).
- `Core.pushAll`: words pushed one after the other. They stand on the stack in reverse
  (`Core.peekAll_pushAll`), and nothing else of memory changes (`Core.words_pushAll_of_ne`).
- `Core.exists_run_pops`: registers popped one after the other.
- `Stub.decode_pushes`: the bytes of a stub stand for the pushes that are meant.
- `Entry.run_stub`, `Entry.run_save`: all that has happened to the stack by the time of the
  call is that the frame's words were pushed (`Entry.enter_eq`).
- `Entry.leave_eq`: what goes on after the return is read off the frame, and off nothing else.
- `Entry.transparent` is the main statement.
-/

namespace Supervisor

attribute [ext] Core

namespace Core

variable {words : UInt64 → UInt64} {address value : UInt64}

/-! ## Words in memory -/

/-- The words of memory from an address up. -/
def peekAll (words : UInt64 → UInt64) (address : UInt64) : Nat → List UInt64
  | 0 => []
  | count + 1 => words address :: peekAll words (address + 8) count

/-- A word that is put below others leaves them alone, unless they reach all the way round. -/
theorem peekAll_poke {below : UInt64} {count : Nat} (hbelow : below ≠ address)
    (hroom : (address - below).toNat + 8 * count ≤ UInt64.size) :
    peekAll (poke words below value) address count = peekAll words address count := by
  induction count generalizing address with
  | zero => rfl
  | succ count ih =>
    have hhead : poke words below value address = words address := if_neg hbelow.symm
    rw [peekAll, peekAll, hhead]
    cases count with
    | zero => rfl
    | succ count =>
      have hshift : address + 8 - below = address - below + 8 := by grind
      have hnext : (address + 8 - below).toNat = (address - below).toNat + 8 := by
        rw [hshift, UInt64.toNat_add]
        exact Nat.mod_eq_of_lt (by show _ + 8 < UInt64.size; omega)
      refine congrArg _ (ih ?_ (by omega))
      rintro rfl
      rw [UInt64.sub_self] at hnext
      exact absurd hnext.symm (Nat.succ_ne_zero _)

/-! ## Pushing -/

/-- Pushes words one after the other. -/
def pushAll (c : Core) (values : List UInt64) : Core :=
  values.foldl pushWord c

theorem pushAll_append (c : Core) (vs ws : List UInt64) :
    c.pushAll (vs ++ ws) = (c.pushAll vs).pushAll ws :=
  List.foldl_append

/-- Pushing moves the stack pointer and changes memory. -/
theorem pushAll_eq (c : Core) (values : List UInt64) :
    c.pushAll values = { c with
      rsp := c.rsp - 8 * UInt64.ofNat values.length
      words := (c.pushAll values).words } := by
  induction values generalizing c with
  | nil =>
    have hzero : c.rsp = c.rsp - 8 * UInt64.ofNat 0 := (UInt64.sub_zero _).symm
    exact congrArg (fun rsp => { c with rsp }) hzero
  | cons v values ih =>
    have hstep : c.rsp - 8 - 8 * UInt64.ofNat values.length =
        c.rsp - 8 * UInt64.ofNat (values.length + 1) := by
      rw [UInt64.ofNat_add]
      grind
    refine (ih (c.pushWord v)).trans ?_
    exact congrArg (fun rsp => { c with rsp, words := (c.pushAll (v :: values)).words }) hstep

theorem pushAll_rsp (c : Core) (values : List UInt64) :
    (c.pushAll values).rsp = c.rsp - 8 * UInt64.ofNat values.length := by
  rw [pushAll_eq]

variable {c : Core} {values : List UInt64}

/-- Pushed words stand on the stack, the last one lowest, below what was there. -/
theorem peekAll_pushAll {count : Nat} (hroom : 8 * (values.length + count) ≤ UInt64.size) :
    peekAll (c.pushAll values).words (c.pushAll values).rsp (values.length + count) =
      values.reverse ++ peekAll c.words c.rsp count := by
  induction values generalizing c count with
  | nil =>
    rw [List.length_nil, Nat.zero_add]
    rfl
  | cons v values ih =>
    rw [List.length_cons] at hroom ⊢
    have hback : c.rsp - 8 + 8 = c.rsp := by grind
    have hgap : c.rsp - (c.rsp - 8) = 8 := by grind
    have hbelow : c.rsp - 8 ≠ c.rsp := by
      intro heq
      rw [heq, UInt64.sub_self] at hgap
      cases hgap
    have hpushed : peekAll (c.pushWord v).words (c.pushWord v).rsp (count + 1) =
        v :: peekAll c.words c.rsp count := by
      show poke c.words (c.rsp - 8) v (c.rsp - 8) ::
        peekAll (poke c.words (c.rsp - 8) v) (c.rsp - 8 + 8) count = _
      rw [hback, peekAll_poke hbelow (by rw [hgap]; show 8 + _ ≤ _; omega)]
      exact congrArg (· :: _) (if_pos rfl)
    have hcount : values.length + 1 + count = values.length + (count + 1) := by omega
    rw [hcount, List.reverse_cons, List.append_assoc]
    refine (ih (c := c.pushWord v) (by omega)).trans ?_
    rw [hpushed]
    rfl

/-- Memory changes only where the words now stand. -/
theorem words_pushAll_of_ne {a : UInt64}
    (h : ∀ i < values.length, a ≠ (c.pushAll values).rsp + 8 * UInt64.ofNat i) :
    (c.pushAll values).words a = c.words a := by
  induction values generalizing c with
  | nil => rfl
  | cons v values ih =>
    have hpushed : (c.pushWord v).words a = c.words a := by
      refine if_neg ?_
      have hfirst := h values.length (Nat.lt_succ_self _)
      rw [pushAll_rsp, List.length_cons, UInt64.ofNat_add] at hfirst
      have hplace : c.rsp - 8 * (UInt64.ofNat values.length + UInt64.ofNat 1)
          + 8 * UInt64.ofNat values.length = c.rsp - 8 := by grind
      rwa [hplace] at hfirst
    refine (ih fun i hi => ?_).trans hpushed
    exact h i (Nat.lt_succ_of_lt hi)

/-! ## Popping -/

theorem run_append (c : Core) (first second : List Instruction) :
    c.run (first ++ second) = (c.run first).run second :=
  List.foldl_append

/-- Registers popped one after the other get the words of the stack in that order. Nothing
else changes but the stack pointer. -/
theorem exists_run_pops {rs : List Register} (h : rs.Nodup) (c : Core) :
    ∃ general, c.run (rs.map .pop) =
        { c with general, rsp := c.rsp + 8 * UInt64.ofNat rs.length } ∧
      rs.map general = peekAll c.words c.rsp rs.length ∧
      ∀ r, r ∉ rs → general r = c.general r := by
  induction rs generalizing c with
  | nil =>
    have hzero : c.rsp = c.rsp + 8 * UInt64.ofNat 0 := (UInt64.add_zero _).symm
    exact ⟨c.general, congrArg (fun rsp => { c with rsp }) hzero, rfl, fun _ _ => rfl⟩
  | cons q rs ih =>
    obtain ⟨hq, hrs⟩ := List.nodup_cons.mp h
    obtain ⟨general, hrun, hpopped, hkept⟩ := ih hrs ((c.set q c.top).dropWords 1)
    have hstep : c.rsp + 8 * 1 + 8 * UInt64.ofNat rs.length =
        c.rsp + 8 * UInt64.ofNat (rs.length + 1) := by
      rw [UInt64.ofNat_add]
      grind
    refine ⟨general, ?_, ?_, ?_⟩
    · refine hrun.trans ?_
      exact congrArg (fun rsp => { c with general, rsp }) hstep
    · have htop : general q = c.words c.rsp := (hkept q hq).trans (if_pos rfl)
      rw [List.map_cons, htop, hpopped]
      rfl
    · intro r hr
      obtain ⟨hne, hmem⟩ := not_or.mp (mt List.mem_cons.mpr hr)
      exact (hkept r hmem).trans (if_neg hne)

/-! ## Alignment -/

theorem toNat_aligned (rsp : UInt64) : (aligned rsp).toNat = rsp.toNat / 16 * 16 := by
  have hmask : ∀ i < 64, (~~~ (15 : UInt64)).toBitVec.getLsbD i = decide (4 ≤ i) := by decide
  have hshift : (aligned rsp).toBitVec = (rsp.toBitVec >>> 4) <<< 4 := by
    apply BitVec.eq_of_getLsbD_eq
    intro i hi
    rw [aligned, UInt64.toBitVec_and, BitVec.getLsbD_and, hmask i hi, BitVec.getLsbD_shiftLeft,
      BitVec.getLsbD_ushiftRight, decide_eq_true hi]
    by_cases hlow : i < 4
    · simp [hlow, Nat.not_le.mpr hlow]
    · simp [hlow, Nat.not_lt.mp hlow]
  rw [← UInt64.toNat_toBitVec, hshift, BitVec.toNat_shiftLeft, BitVec.toNat_ushiftRight,
    Nat.shiftLeft_eq, Nat.shiftRight_eq_div_pow, UInt64.toNat_toBitVec]
  have hlt := rsp.toNat_lt
  omega

theorem aligned_mod (rsp : UInt64) : (aligned rsp).toNat % 16 = 0 := by
  rw [toNat_aligned]
  exact Nat.mul_mod_left _ _

theorem aligned_of_mod {rsp : UInt64} (h : rsp.toNat % 16 = 0) : aligned rsp = rsp := by
  apply UInt64.toNat_inj.mp
  rw [toNat_aligned]
  omega

/-- An even number of words keeps the stack aligned. -/
theorem mod_sub_208 {rsp : UInt64} (h : rsp.toNat % 16 = 0) : (rsp - 208).toNat % 16 = 0 := by
  have hsub : (rsp - 208).toNat = (2 ^ 64 - 208 + rsp.toNat) % 2 ^ 64 := UInt64.toNat_sub ..
  omega

end Core

/-! ## The frame -/

namespace Frame

open Supervisor.Core (peekAll)

theorem toWords_load (words : UInt64 → UInt64) (address : UInt64) :
    (Frame.load words address).toWords = peekAll words address 26 := by
  simp only [toWords, fields, Frame.load, List.map_cons, List.map_nil, peekAll, UInt64.add_assoc,
    UInt64.reduceAdd]

theorem toWords_inj {f g : Frame} (h : f.toWords = g.toWords) : f = g := by
  cases f
  cases g
  simpa [toWords, fields, and_assoc] using h

/-- A frame is read back from its words. -/
theorem load_eq {words : UInt64 → UInt64} {address : UInt64} {f : Frame}
    (h : peekAll words address 26 = f.toWords) : Frame.load words address = f :=
  toWords_inj ((toWords_load words address).trans h)

end Frame

/-! ## The bytes of a stub -/

namespace Stub

/-- The pushes that bytes stand for. What is pushed is a number of one byte or of four, with its
sign extended. -/
def decode : List UInt8 → List Instruction
  | 0x6a :: a :: rest => .pushImmediate (.ofBitVec (a.toBitVec.signExtend 64)) :: decode rest
  | 0x68 :: a :: b :: c :: d :: rest =>
    .pushImmediate (.ofBitVec
      ((d.toBitVec ++ c.toBitVec ++ b.toBitVec ++ a.toBitVec).signExtend 64)) :: decode rest
  | _ => []

variable {vector : UInt8}

theorem decode_short (h : vector < 128) :
    decode [0x6a, vector] = [.pushImmediate vector.toUInt64] := by
  have hlow : vector.toNat < 128 := UInt8.lt_iff_toNat_lt.mp h
  have hsign : vector.toBitVec.msb = false := by
    rw [BitVec.msb_eq_false_iff_two_mul_lt, UInt8.toNat_toBitVec]
    omega
  rw [decode, BitVec.signExtend_eq_setWidth_of_msb_false hsign]
  rfl

theorem decode_long (vector : UInt8) :
    decode [0x68, vector, 0, 0, 0] = [.pushImmediate vector.toUInt64] := by
  let wide := (0 : BitVec 24) ++ vector.toBitVec
  have hlt := vector.toNat_lt
  have hvalue : wide.toNat = vector.toNat := by
    rw [BitVec.toNat_append]
    exact Nat.zero_shiftLeft 8 ▸ Nat.zero_or _
  have hsign : wide.msb = false := by
    rw [BitVec.msb_eq_false_iff_two_mul_lt, hvalue]
    omega
  have hextended : wide.signExtend 64 = vector.toUInt64.toBitVec := by
    rw [BitVec.signExtend_eq_setWidth_of_msb_false hsign]
    apply BitVec.eq_of_toNat_eq
    rw [BitVec.toNat_setWidth, hvalue]
    exact Nat.mod_eq_of_lt (Nat.lt_trans hlt (by decide))
  exact congrArg (fun x => [Instruction.pushImmediate (.ofBitVec x)]) hextended

/-- The bytes of a stub push the vector as it is. From 128 on, the short form would push a
negative number. -/
theorem decode_pushes (vector : UInt8) : decode (pushes vector) = Entry.stub vector := by
  have hvector : decode (if vector < 128 then [0x6a, vector] else [0x68, vector, 0, 0, 0]) =
      [.pushImmediate vector.toUInt64] := by
    split
    · next hlow => exact decode_short hlow
    · exact decode_long vector
  rw [pushes, Entry.stub]
  cases omitsZero vector with
  | true => exact hvector
  | false => exact congrArg (.pushImmediate 0 :: ·) hvector

/-- The stubs and the processor agree on the vectors with an error code. -/
theorem omitsZero_eq (vector : UInt8) : omitsZero vector = hasErrorCode vector :=
  rfl

end Stub

/-! ## Entry -/

namespace Core

/-- The frame that says where the core was when an interrupt stopped it. -/
def interruptedFrame (c : Core) (vector : UInt8) (errorCode : UInt64) : Frame :=
  { c.toFrame with
    vector := vector.toUInt64
    errorCode := if hasErrorCode vector then errorCode else 0 }

/-- The core that has taken an interrupt and pushed nothing yet. -/
def taken (c : Core) : Core :=
  { c with rsp := aligned c.rsp, rflags := c.rflags &&& ~~~ maskedFlags }

end Core

namespace Entry

open Supervisor.Core (aligned)

/-- Whether or not there is an error code, seven words are pushed before the registers are
saved. -/
theorem run_stub (c : Core) (vector : UInt8) (errorCode : UInt64) :
    (c.interrupt (if hasErrorCode vector then some errorCode else none)).run (stub vector) =
      c.taken.pushAll [c.ss, c.rsp, c.rflags, c.cs, c.rip,
        if hasErrorCode vector then errorCode else 0, vector.toUInt64] := by
  rw [stub, Stub.omitsZero_eq]
  cases hasErrorCode vector with
  | true => rfl
  | false => rfl

/-- The registers are saved as they are: the one that selectors pass through is saved before,
and the selectors are saved before they are replaced. -/
theorem run_save (c : Core) :
    let saving := c.pushAll
      (saved.map c.general ++ [.ds, .es, .fs, .gs].map fun s => (c.segment s).toUInt64)
    (c.run save).words = saving.words ∧ (c.run save).general .rdi = saving.rsp ∧
      (c.run save).general .rbx = saving.rsp ∧ (c.run save).rsp = aligned saving.rsp :=
  ⟨rfl, rfl, rfl, rfl⟩

section Enter

variable (c : Core) (vector : UInt8) (errorCode : UInt64)

/-- The core when everything is pushed, its other registers as they were. -/
def pushed : Core :=
  c.taken.pushAll (c.interruptedFrame vector errorCode).toWords.reverse

/-- At the call, the stack has grown by the frame, and has been aligned below it. -/
theorem enter_eq :
    let called := enter c vector errorCode
    called.words = (pushed c vector errorCode).words ∧
      called.general .rdi = (pushed c vector errorCode).rsp ∧
      called.general .rbx = (pushed c vector errorCode).rsp ∧
      called.rsp = aligned (pushed c vector errorCode).rsp := by
  intro called
  have hcalled : called = (c.taken.pushAll [c.ss, c.rsp, c.rflags, c.cs, c.rip,
      if hasErrorCode vector then errorCode else 0, vector.toUInt64]).run save := by
    rw [← run_stub, ← Core.run_append]
    rfl
  have hpushed : pushed c vector errorCode = (c.taken.pushAll [c.ss, c.rsp, c.rflags, c.cs, c.rip,
      if hasErrorCode vector then errorCode else 0, vector.toUInt64]).pushAll
      (saved.map c.general ++ [.ds, .es, .fs, .gs].map fun s => (c.segment s).toUInt64) := by
    rw [← Core.pushAll_append]
    rfl
  rw [hcalled, hpushed, Core.pushAll_eq c.taken]
  exact run_save _

theorem pushed_rsp : (pushed c vector errorCode).rsp = aligned c.rsp - 208 :=
  Core.pushAll_rsp ..

theorem pushed_rsp_mod : (pushed c vector errorCode).rsp.toNat % 16 = 0 := by
  rw [pushed_rsp]
  exact Core.mod_sub_208 (Core.aligned_mod _)

/-- There are 26 words, so the stack was aligned already. -/
theorem enter_rsp : (enter c vector errorCode).rsp = (pushed c vector errorCode).rsp := by
  obtain ⟨-, -, -, hrsp⟩ := enter_eq c vector errorCode
  exact hrsp.trans (Core.aligned_of_mod (pushed_rsp_mod c vector errorCode))

theorem enter_frame : (enter c vector errorCode).frame = c.interruptedFrame vector errorCode := by
  obtain ⟨hwords, hrdi, -, -⟩ := enter_eq c vector errorCode
  rw [Core.frame, hwords, hrdi]
  refine Frame.load_eq ?_
  let words := (c.interruptedFrame vector errorCode).toWords.reverse
  have hroom : 8 * (words.length + 0) ≤ UInt64.size := by
    show 8 * 26 ≤ UInt64.size
    decide
  have hstack := Core.peekAll_pushAll (c := c.taken) hroom
  rw [List.reverse_reverse] at hstack
  exact hstack.trans (List.append_nil _)

/-- Nothing else of memory is written. -/
theorem enter_words_of_ne {a : UInt64}
    (h : ∀ i < 26, a ≠ (enter c vector errorCode).general .rdi + 8 * UInt64.ofNat i) :
    (enter c vector errorCode).words a = c.words a := by
  obtain ⟨hwords, hrdi, -, -⟩ := enter_eq c vector errorCode
  rw [hrdi] at h
  rw [hwords]
  exact Core.words_pushAll_of_ne h

end Enter

/-! ## Return -/

theorem mem_saved (r : Register) : r ∈ saved := by
  cases r <;> decide

/-- The selectors are popped first, two of them through a register. -/
theorem run_restore_segments (c : Core) :
    let popped := c.run (restore.take 7)
    let f := Frame.load c.words (c.general .rbx)
    popped.words = c.words ∧ popped.rsp = c.general .rbx + 32 ∧
      popped.segment = (Core.ofFrame f).segment := by
  intro popped f
  refine ⟨rfl, ?_, ?_⟩
  · show c.general .rbx + 8 * 1 + 8 * 1 + 8 * 1 + 8 * 1 = _
    grind
  · funext s
    cases s with
    | gs => rfl
    | fs => rfl
    | es =>
      show (c.words (c.general .rbx + 8 * 1 + 8 * 1)).toUInt16 = _
      rw [UInt64.add_assoc]
      rfl
    | ds =>
      show (c.words (c.general .rbx + 8 * 1 + 8 * 1 + 8 * 1)).toUInt16 = _
      rw [UInt64.add_assoc, UInt64.add_assoc]
      rfl

/-- The general registers are the words above the selectors. -/
theorem map_saved_ofFrame (words : UInt64 → UInt64) (address : UInt64) :
    saved.reverse.map (Core.ofFrame (Frame.load words address)).general =
      Core.peekAll words (address + 32) 15 := by
  simp only [saved, List.reverse_cons, List.reverse_nil, List.nil_append, List.cons_append,
    List.map_cons, List.map_nil, Core.peekAll, Core.ofFrame, Frame.load, UInt64.add_assoc,
    UInt64.reduceAdd]

/-- What goes on after the return is read off the frame, whatever the other registers hold. -/
theorem leave_eq (c : Core) :
    leave c = { Core.ofFrame (Frame.load c.words (c.general .rbx)) with words := c.words } := by
  obtain ⟨hwords, hrsp, hsegment⟩ := run_restore_segments c
  have hnodup : saved.reverse.Nodup := by decide
  obtain ⟨general, hpops, hpopped, -⟩ := Core.exists_run_pops hnodup (c.run (restore.take 7))
  have hsplit : restore = restore.take 7 ++ saved.reverse.map .pop ++ [.drop 2] := rfl
  have hgeneral : general = (Core.ofFrame (Frame.load c.words (c.general .rbx))).general := by
    rw [hwords, hrsp] at hpopped
    have hall := List.map_inj_left.mp (hpopped.trans (map_saved_ofFrame _ _).symm)
    funext r
    exact hall r (List.mem_reverse.mpr (mem_saved r))
  have hend : c.general .rbx + 32 + 8 * UInt64.ofNat saved.reverse.length + 8 * 2 =
      c.general .rbx + 168 := by
    show c.general .rbx + 32 + 8 * 15 + 8 * 2 = _
    grind
  rw [leave, hsplit, Core.run_append, Core.run_append, hpops, hrsp]
  show Core.iretq { c.run (restore.take 7) with
    general, rsp := c.general .rbx + 32 + 8 * UInt64.ofNat saved.reverse.length + 8 * 2 } = _
  rw [hend, Core.iretq, hwords, hgeneral, hsegment]
  simp only [Core.ofFrame, Frame.load, UInt64.add_assoc, UInt64.reduceAdd, UInt64.reduceMul]

end Entry

/-- The frame of interrupted code holds all of its registers. -/
theorem Core.ofFrame_interruptedFrame (c : Core) (vector : UInt8) (errorCode : UInt64) :
    { Core.ofFrame (c.interruptedFrame vector errorCode) with words := c.words } = c := by
  refine Core.ext ?_ ?_ rfl rfl rfl rfl rfl rfl
  · funext r
    cases r <;> rfl
  · funext s
    cases s with
    | ds => exact UInt16.toUInt16_toUInt64 _
    | es => exact UInt16.toUInt16_toUInt64 _
    | fs => exact UInt16.toUInt16_toUInt64 _
    | gs => exact UInt16.toUInt16_toUInt64 _

namespace Entry

/-! ## There and back -/

/-- Whatever code is interrupted, by whatever vector: the router is called with the address of
a frame that holds every register as it was, on an aligned stack whose other words are as they
were. And if the router keeps `rbx`, what goes on has its registers from what the frame holds
then, so it is the interrupted code itself if the frame was left alone. -/
theorem transparent (c : Core) (vector : UInt8) (errorCode : UInt64) :
    let called := enter c vector errorCode
    called.frame = c.interruptedFrame vector errorCode ∧
    called.rsp.toNat % 16 = 0 ∧
    called.general .rdi = called.rsp ∧ called.general .rdi = Core.aligned c.rsp - 208 ∧
    (∀ a, (∀ i < 26, a ≠ called.general .rdi + 8 * UInt64.ofNat i) →
      called.words a = c.words a) ∧
    ∀ returned : Core, returned.general .rbx = called.general .rbx →
      let f := Frame.load returned.words (called.general .rdi)
      leave returned = { Core.ofFrame f with words := returned.words } ∧
      (f = called.frame → leave returned = { c with words := returned.words }) := by
  intro called
  obtain ⟨-, hrdi, hrbx, -⟩ : _ ∧ called.general .rdi = (pushed c vector errorCode).rsp ∧
      called.general .rbx = (pushed c vector errorCode).rsp ∧ _ := enter_eq c vector errorCode
  have hrsp : called.rsp = (pushed c vector errorCode).rsp := enter_rsp c vector errorCode
  have hframe : called.frame = c.interruptedFrame vector errorCode := enter_frame c vector errorCode
  refine ⟨hframe, ?_, ?_, ?_, ?_, ?_⟩
  · rw [hrsp]
    exact pushed_rsp_mod c vector errorCode
  · rw [hrdi, hrsp]
  · rw [hrdi, pushed_rsp]
  · intro a ha
    exact enter_words_of_ne c vector errorCode ha
  · intro returned hkept
    have hleave := leave_eq returned
    rw [hkept, hrbx, ← hrdi] at hleave
    refine ⟨hleave, ?_⟩
    intro hsame
    rw [hleave, hsame, hframe]
    have hback := Core.ofFrame_interruptedFrame c vector errorCode
    exact congrArg (fun d : Core => { d with words := returned.words }) hback

/-- Code that is interrupted with its stack at an odd address. -/
def oddStack : Core where
  general | .rax => 1 | .rbx => 2 | _ => 3
  segment | .ds => 0x23 | _ => 0x2b
  cs := 8
  ss := 16
  rip := 0x1000
  rflags := 0x202
  rsp := 0x8ff9

/-- The core after a router that kept nothing but `rbx` and memory. -/
def clobbered (c : Core) : Core :=
  { c with
    general := fun r => if r = .rbx then c.general r else 0
    segment := fun _ => 0
    rsp := 0 }

theorem transparent_oddStack :
    let called := enter oddStack 14 2
    called.frame = oddStack.interruptedFrame 14 2 ∧ called.rsp = 0x8f20 ∧
      leave (clobbered called) = { oddStack with words := called.words } := by
  obtain ⟨hframe, -, hrdi, hdepth, -, hleave⟩ := transparent oddStack 14 2
  have hkept (c : Core) : (clobbered c).general .rbx = c.general .rbx := rfl
  have hwords (c : Core) : (clobbered c).words = c.words := rfl
  obtain ⟨-, hresumed⟩ := hleave (clobbered _) (hkept _)
  refine ⟨hframe, ?_, ?_⟩
  · rw [← hrdi, hdepth]
    decide
  · rw [hwords] at hresumed
    exact hresumed (by rw [Core.frame])

end Entry

end Supervisor
