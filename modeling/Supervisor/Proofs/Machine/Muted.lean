import Supervisor.Machine.Start
import Supervisor.Proofs.Interrupt.Quiet

/-!
# The kernel comes up with interrupts off

Each part of the kernel that is used while it comes up is muted, and so is the whole. This needs
nothing but the way the parts are put together, so that it holds for every image, every
loader's block, every contents of memory, and where the kernel stops with a report.

- `Console.within_synced` and what follows: the console accesses the ports of the display
  controller only.
- `Machine.muted_log`, `Machine.muted_panic`, `Machine.muted_storeInit`: the parts.
- `Machine.muted_bringUp`: the whole.
-/

namespace Supervisor

open Board (Muted)

variable {P : UInt16 → Prop} {α : Type}

/-! ## Ports -/

namespace Console

/-- The class contains the ports of the display controller. -/
def Controls (P : UInt16 → Prop) : Prop :=
  P registerPort ∧ P dataPort

variable (h : Controls P)

include h

theorem within_synced (c : Console) : Ports.Within P c.synced :=
  ((Ports.Within.write8 h.1 _).bind fun _ => (Ports.Within.write8 h.2 _).bind fun _ =>
    (Ports.Within.write8 h.1 _).bind fun _ => .write8 h.2 _).bind fun _ => .pure _

theorem within_writeText (s : String) (c : Console) : Ports.Within P (c.writeText s) :=
  within_synced h _

theorem within_paint (pieces : List (Color × String)) (c : Console) :
    Ports.Within P (Log.Entry.paint pieces c) := by
  induction pieces generalizing c with
  | nil => exact .pure _
  | cons piece pieces ih => exact (within_writeText h _ _).bind ih

theorem within_display (e : Log.Entry) (ms : Nat) (c : Console) :
    Ports.Within P (e.display ms c) :=
  (within_paint h _ _).bind fun _ => (within_synced h _).bind fun _ => .pure _

end Console

namespace Pic

theorem within_sendMask (hmaster : P masterData) (hslave : P slaveData) (c : Pic) :
    Ports.Within P c.sendMask :=
  (Ports.Within.write8 hmaster _).bind fun _ => .write8 hslave _

theorem within_unmaskLine (hmaster : P masterData) (hslave : P slaveData) (c : Pic)
    (line : UInt8) : Ports.Within P (c.unmaskLine line) := by
  rw [unmaskLine]
  split
  · exact .pure _
  · exact (within_sendMask hmaster hslave _).bind fun _ => .pure _

end Pic

namespace Machine

/-! ## Output -/

theorem muted_look (f : Kernel → α) : Muted P (look f) :=
  Muted.get.bind fun _ => .pure _

theorem muted_change (f : Kernel → Kernel) : Muted P (change f) :=
  .modify (fun _ => rfl) (fun _ => rfl) fun _ => rfl

theorem muted_send (s : String) : Muted P (send s) :=
  .locked <| (muted_look _).bind fun _ => .ite (muted_change _) (.pure _)

theorem muted_onConsole {f : Console → PortM Console} (h : ∀ c, Ports.Within P (f c)) :
    Muted P (onConsole f) :=
  (muted_look _).bind fun c => (Muted.onPorts (h c)).bind fun _ => muted_change _

theorem muted_haltForever : Muted P (haltForever : MachineM α) :=
  Muted.disable.bind fun _ => .throw .halted

theorem muted_withConsole {f : Console → PortM Console} (h : ∀ c, Ports.Within P (f c)) :
    Muted P (withConsole f) :=
  .locked (muted_onConsole h)

theorem muted_onFrames (missing : α) (body : FrameM α) : Muted P (onFrames missing body) := by
  refine .locked ((muted_look _).bind fun k => ?_)
  split
  · exact .pure _
  · split
    · exact (muted_change _).bind fun _ => .pure _
    · exact (muted_change _).bind fun _ => .throw _

theorem muted_onHeap (body : HeapM α) : Muted P (onHeap body) := by
  refine .locked ((muted_look _).bind fun k => ?_)
  split
  · exact (muted_change _).bind fun _ => .pure _
  · exact (muted_change _).bind fun _ => .throw _

section Outputs

variable (h : Console.Controls P)

include h

theorem muted_log (e : Log.Entry) : Muted P (log e) := by
  refine (muted_look _).bind fun k =>
    .ite ((muted_send _).bind fun _ => .ite ?_ (.pure _)) (.pure _)
  exact muted_withConsole (Console.within_display h e _)

theorem muted_tee (s : String) : Muted P (tee s) :=
  (muted_onConsole (Console.within_writeText h s)).bind fun _ => muted_send s

/-! ## Reports -/

theorem muted_panic (kind : Panic.Kind) (message : String) :
    Muted P (panic kind message : MachineM α) := by
  have henter : Muted P enterPanic :=
    Muted.disable.bind fun _ => (muted_look _).bind fun _ =>
      .ite (muted_haltForever.bind fun _ => muted_change _) (muted_change _)
  have hemit (r : Panic.Report) : Muted P (emit r (return) : MachineM α) := by
    refine (Muted.release _).bind fun _ => (Muted.release _).bind fun _ =>
      (muted_change _).bind fun _ => (Muted.locked ?_).bind fun _ => muted_haltForever
    refine (muted_onConsole fun c => ?_).bind fun _ => (muted_tee h _).bind fun _ =>
      (Muted.pure _).bind fun _ => muted_tee h _
    exact Console.within_synced h _
  exact henter.bind fun _ => (muted_look _).bind fun k => hemit _

theorem muted_assertThat (holds : Bool) (expression : String) (details : Option String) :
    Muted P (assertThat holds expression details) := by
  rw [assertThat]
  split
  · exact muted_panic h _ _
  · exact .pure _

/-! ## Tables -/

theorem muted_installSegments : Muted P installSegments := by
  have hload (register : SegmentRegister) (selector : UInt16) :
      Muted P (loadSegment register selector) := .note CpuEvent.noConfusion
  have hsegments (g : Gdt) : Muted P (loadSegments g) :=
    (muted_change _).bind fun _ => (hload _ _).bind fun _ =>
      (Muted.forM fun _ _ => hload _ _).bind fun _ => muted_change _
  have hinstall (top : UInt64) : Muted P (installSegmentsWith top) := by
    rw [installSegmentsWith]
    split
    · exact .pure _
    · refine (muted_look _).bind fun k => ?_
      exact .ite (.pure _) <| (muted_change _).bind fun _ => (hsegments _).bind fun _ =>
        (muted_log h _).bind fun _ => .pure _
  refine (muted_look _).bind fun top => (hinstall top).bind fun answer => ?_
  split
  · exact .pure _
  · exact muted_panic h _ _

theorem muted_installInterrupts : Muted P installInterrupts := by
  have hgates : Muted P installGates :=
    (muted_change _).bind fun _ => (muted_change _).bind fun _ => (muted_look _).bind fun _ =>
      muted_log h _
  refine hgates.bind fun _ => (muted_look _).bind fun gate => ?_
  split
  · exact muted_log h _
  · exact .pure _

/-! ## Frames and heap -/

theorem muted_framesInit (upperBound : Nat) (kernel : Span) :
    Muted P (framesInit upperBound kernel) := by
  refine (Muted.lift _).bind fun bytes => (Muted.lift _).bind fun bump =>
    (Muted.lift _).bind fun taken => ?_
  split
  · exact .pure _
  · refine (muted_look _).bind fun m => (Muted.lift _).bind fun built => ?_
    split
    · exact .pure _
    · exact (Muted.lift _).bind fun _ => (Muted.locked (muted_change _)).bind fun _ =>
        (muted_log h _).bind fun _ => .pure _

theorem muted_takeHeapFrames (size fallback : Nat) : Muted P (takeHeapFrames size fallback) := by
  refine (muted_onFrames _ _).bind fun run => ?_
  split
  · exact .pure _
  · refine (muted_log h _).bind fun _ => (muted_onFrames _ _).bind fun run => ?_
    split
    · exact .pure _
    · exact muted_panic h _ _

theorem muted_storeInit (upperBound size fallback : Nat) (kernel : Span) :
    Muted P (storeInit upperBound size fallback kernel) := by
  refine (muted_framesInit h _ _).bind fun answer => ?_
  split
  · exact muted_panic h _ _
  · exact (Muted.lift _).bind fun _ => (Muted.lift _).bind fun _ => (muted_log h _).bind fun _ =>
      (muted_takeHeapFrames h _ _).bind fun _ => (muted_onHeap _).bind fun _ =>
        (muted_assertThat h _ _ _).bind fun _ => muted_log h _

/-! ## Devices -/

theorem muted_attachLine (hmaster : P Pic.masterData) (hslave : P Pic.slaveData) (line : UInt8)
    (handler : Handler) : Muted P (attachLine line handler) := by
  refine (Muted.withPic fun _ => .pure _).bind fun vector => ?_
  split
  · refine (Muted.map (.register _ _) _).bind fun _ => (Muted.changePic fun c => ?_).bind fun _ =>
      muted_log h _
    exact Pic.within_unmaskLine hmaster hslave c line
  · exact .pure _

theorem muted_announce (info : LoaderInfo) : Muted P (announce info) := by
  refine (muted_log h _).bind fun _ => .ite ?_ (.ite (muted_log h _) (.pure _))
  exact (muted_log h _).bind fun _ => .ite (muted_log h _) (.pure _)

end Outputs

/-! ## The whole -/

/-- The class of all ports. -/
abbrev anyPort : UInt16 → Prop :=
  fun _ => True

theorem muted_picInit (master slave : UInt8) : Muted anyPort (picInit master slave) := by
  refine (Muted.changePic fun _ => ?_).bind fun _ => muted_log ⟨trivial, trivial⟩ _
  refine (Ports.Within.forM fun _ _ => ?_).bind fun _ =>
    (Pic.within_sendMask trivial trivial _).bind fun _ => .pure _
  exact (Ports.Within.write8 trivial _).bind fun _ => .write8 trivial _

theorem within_program (channel : Pit.Channel) (mode : Pit.Mode) (hz : UInt32) :
    Ports.Within anyPort (Pit.program channel mode hz) :=
  (Ports.Within.write8 trivial _).bind fun _ => (Ports.Within.write8 trivial _).bind fun _ =>
    .write8 trivial _

theorem muted_timerInit (requested : UInt32) : Muted anyPort (timerInit requested) := by
  have hcontrols : Console.Controls anyPort := ⟨trivial, trivial⟩
  refine (Muted.locked (.onPorts (within_program _ _ _))).bind fun _ =>
    (muted_change _).bind fun _ =>
      (muted_attachLine hcontrols trivial trivial _ _).bind fun _ => ?_
  exact (muted_log hcontrols _).bind fun _ => .pure _

/-- Started with interrupts off, the kernel comes up or stops with interrupts off, and nothing
has switched them on meanwhile. -/
theorem muted_bringUp (header : Option LoaderBlock) (recovery : UInt8) (image : Span) :
    Muted anyPort (bringUp header recovery image) := by
  have hcontrols : Console.Controls anyPort := ⟨trivial, trivial⟩
  have hconsole : Muted anyPort consoleInit :=
    muted_withConsole fun _ => Console.within_synced hcontrols _
  have hbanner : Muted anyPort bootMessage := muted_withConsole fun _ =>
    (Console.within_writeText hcontrols _ _).bind fun _ =>
      (Console.within_writeText hcontrols _ _).bind fun _ =>
        (Console.within_writeText hcontrols _ _).bind fun _ => .pure _
  exact (muted_change _).bind fun _ => hconsole.bind fun _ => hbanner.bind fun _ =>
    (muted_change _).bind fun _ => (muted_announce hcontrols _).bind fun _ =>
      (muted_installSegments hcontrols).bind fun _ =>
        (muted_installInterrupts hcontrols).bind fun _ => (muted_log hcontrols _).bind fun _ =>
          (muted_storeInit hcontrols _ _ _ _).bind fun _ => (muted_picInit _ _).bind fun _ =>
            muted_timerInit _

end Machine

end Supervisor
