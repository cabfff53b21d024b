import QCoin.Support.CrashDisk
import QCoin.Support.Stateful

/-!
# File operations which fail

A file system carries an operation out, or it reports an error and leaves what
a failed operation may leave.  Calls on a disk are put together from single
operations; a call whose operations come from a list, in its order, is an
attempt at this list.
-/

namespace QCoin.Support

open Stateful

variable {P C ε : Type}

/-- The operations which fail, each with its error and the disk it leaves. -/
structure FileSystem (P C ε : Type) where
  failure : Disk P C → DiskOp P C → Option (ε × Disk P C)
  leaves : ∀ {disk after : Disk P C} {op : DiskOp P C} {err : ε},
    failure disk op = some (err, after) → op.FailsTo disk after

namespace FileSystem

/-- No operation fails. -/
def reliable : FileSystem P C ε where
  failure _ _ := none
  leaves h := by simp at h

variable [DecidableEq P]

def perform (fs : FileSystem P C ε) (op : DiskOp P C) :
    Stateful (Disk P C) ε Unit :=
  call fun disk =>
    match fs.failure disk op with
    | none => (.ok (), op.run disk)
    | some (err, after) => (.error (.err err), after)

theorem ends_perform {fs : FileSystem P C ε} {op : DiskOp P C}
    {Q : Unit → Disk P C → Prop} {R : ε → Disk P C → Prop} {disk : Disk P C}
    (hdone : Q () (op.run disk))
    (hfailed : ∀ err after, op.FailsTo disk after → R err after) :
    Ends (fs.perform op) Q R disk := by
  rw [Ends, perform, exec_call]
  cases hfailure : fs.failure disk op with
  | none => exact hdone
  | some failure => exact hfailed _ _ (fs.leaves hfailure)

theorem survives_perform {fs : FileSystem P C ε} {op : DiskOp P C}
    {disk : Disk P C} : Survives (fs.perform op) disk :=
  ends_perform trivial fun _ _ _ => trivial

end FileSystem

variable [DecidableEq P]

/-! ## Attempts -/

theorem Attempt.append {disk after : Disk P C} {xs done : List (DiskOp P C)}
    {err : ε} (h : Attempt disk xs (.error err) done after)
    (ys : List (DiskOp P C)) :
    Attempt disk (xs ++ ys) (.error err) done after := by
  cases h with
  | @failed done rest op after err stopped fails =>
      have hstopped : done ++ op :: (rest ++ ys) = xs ++ ys := by
        rw [← stopped, List.append_assoc, List.cons_append]
      exact .failed hstopped fails

theorem Attempt.after_completed {disk after : Disk P C}
    {ys done : List (DiskOp P C)} {err : ε} (xs : List (DiskOp P C))
    (h : Attempt (DiskOp.runAll disk xs) ys (.error err) done after) :
    Attempt disk (xs ++ ys) (.error err) (xs ++ done) after := by
  cases h with
  | @failed done rest op after err stopped fails =>
      have hstopped : xs ++ done ++ op :: rest = xs ++ ys := by
        rw [← stopped, List.append_assoc]
      rw [← DiskOp.runAll_append] at fails
      exact .failed hstopped fails

/-- The call makes the operations in their order, until one of them fails. -/
def Attempts (x : Stateful (Disk P C) ε Unit) (ops : List (DiskOp P C)) :
    Prop :=
  ∀ disk, Ends x (fun _ after => after = DiskOp.runAll disk ops)
    (fun err after => ∃ done, Attempt disk ops (.error err) done after) disk

namespace Attempts

variable {x y : Stateful (Disk P C) ε Unit} {xs ys : List (DiskOp P C)}

theorem perform (fs : FileSystem P C ε) (op : DiskOp P C) :
    Attempts (fs.perform op) [op] := by
  intro disk
  refine FileSystem.ends_perform rfl ?_
  intro err after hfails
  exact ⟨[], .failed (List.nil_append _) hfails⟩

theorem bind (hx : Attempts x xs) (hy : Attempts y ys) :
    Attempts (x >>= fun _ => y) (xs ++ ys) := by
  intro disk
  rw [Ends.bind_iff]
  refine (hx disk).mono ?_ ?_
  · intro _ mid hmid
    rw [hmid]
    refine (hy _).mono ?_ ?_
    · intro _ after hafter
      rw [hafter, DiskOp.runAll_append]
    · rintro err after ⟨done, h⟩
      exact ⟨xs ++ done, h.after_completed xs⟩
  · rintro err after ⟨done, h⟩
    exact ⟨done, h.append ys⟩

end Attempts

end QCoin.Support
