import Mathlib.Data.Set.Insert
import Mathlib.Logic.Function.Basic

/-!
# Files and crashes

What a process sees of a disk and what a crash may leave of it.  Written data
reaches the disk when the file is synced, and a renamed entry when its
directory is; until then a crash may leave either state.  The rules at the end
are about the usual atomic replacement of a file: write a temporary file, sync
it, rename it, sync the directory.
-/

namespace QCoin.Support

variable {P C : Type}

/-- The file behind a name.  A reader finds `visible`.  A crash leaves one of
`current`, or one of `old` when the latest change of the directory entry had
not reached the disk; `none` means that there is no file. -/
structure FileState (C : Type) where
  visible : Option C
  current : Set (Option C)
  old : Set (Option C)

namespace FileState

def afterCrash (file : FileState C) : Set (Option C) :=
  file.current ∪ file.old

/-- Everything about the file is on the disk. -/
def settled (contents : Option C) : FileState C where
  visible := contents
  current := {contents}
  old := ∅

@[simp] theorem settled_visible (contents : Option C) :
    (settled contents).visible = contents := rfl

@[simp] theorem afterCrash_settled (contents : Option C) :
    (settled contents).afterCrash = {contents} :=
  Set.union_empty _

end FileState

abbrev Disk (P C : Type) := P → FileState C

/-- `after` is a disk which a crash may leave. -/
def Disk.CrashesTo (disk after : Disk P C) : Prop :=
  ∀ path, ∃ contents ∈ (disk path).afterCrash,
    after path = FileState.settled contents

inductive DiskOp (P C : Type) where
  | createDirs (path : P)
  | create (path : P) (empty : C)
  | write (path : P) (contents : C)
  | syncFile (path : P)
  | rename (source target : P)
  | syncDir (path : P)

namespace DiskOp

/-- The files whose state the operation may change. -/
def touched : DiskOp P C → List P
  | .createDirs _ => []
  | .create path _ => [path]
  | .write path _ => [path]
  | .syncFile path => [path]
  | .rename source target => [source, target]
  | .syncDir path => [path]

variable [DecidableEq P]

def run (disk : Disk P C) : DiskOp P C → Disk P C
  | .createDirs _ => disk
  | .create path empty => Function.update disk path {
      visible := some empty
      current := Set.univ
      old := Set.univ }
  -- A write which was cut short leaves anything.
  | .write path contents => Function.update disk path {
      disk path with
      visible := some contents
      current := Set.univ }
  | .syncFile path => Function.update disk path {
      disk path with
      current := {(disk path).visible} }
  | .rename source target =>
      Function.update
        (Function.update disk source {
          visible := none
          current := {none}
          old := Set.univ })
        target {
          visible := (disk source).visible
          current := (disk source).current
          old := (disk target).afterCrash }
  | .syncDir path => Function.update disk path {
      disk path with
      old := ∅ }

def runAll (disk : Disk P C) (ops : List (DiskOp P C)) : Disk P C :=
  ops.foldl run disk

@[simp] theorem runAll_nil (disk : Disk P C) : runAll disk [] = disk := rfl

@[simp] theorem runAll_cons (disk : Disk P C) (op : DiskOp P C)
    (ops : List (DiskOp P C)) :
    runAll disk (op :: ops) = runAll (op.run disk) ops := rfl

theorem runAll_append (disk : Disk P C) (xs ys : List (DiskOp P C)) :
    runAll disk (xs ++ ys) = runAll (runAll disk xs) ys :=
  List.foldl_append

theorem run_of_notMem_touched {op : DiskOp P C} {path : P}
    (h : path ∉ op.touched) (disk : Disk P C) :
    op.run disk path = disk path := by
  cases op with
  | createDirs _ => rfl
  | rename source target =>
      simp only [touched, List.mem_cons, List.not_mem_nil, or_false,
        not_or] at h
      rw [run, Function.update_of_ne h.2, Function.update_of_ne h.1]
  | _ =>
      simp only [touched, List.mem_singleton] at h
      rw [run, Function.update_of_ne h]

/-- Frame rule: operations leave alone the files they do not touch. -/
theorem runAll_frame {ops : List (DiskOp P C)} {path : P}
    (h : ∀ op ∈ ops, path ∉ op.touched) (disk : Disk P C) :
    runAll disk ops path = disk path := by
  induction ops generalizing disk with
  | nil => rfl
  | cons op ops ih =>
      rw [runAll_cons, ih fun op hop => h op (List.mem_cons_of_mem _ hop),
        run_of_notMem_touched (h op List.mem_cons_self)]

end DiskOp

/-! ## Atomic replacement -/

/-- Write and sync the temporary file. -/
def writeTemp (temp path : P) (empty contents : C) : List (DiskOp P C) :=
  [.createDirs path, .create temp empty, .write temp contents, .syncFile temp]

/-- Replace `path` by way of `temp`. -/
def atomicWrite (temp path : P) (empty contents : C) : List (DiskOp P C) :=
  writeTemp temp path empty contents ++ [.rename temp path] ++ [.syncDir path]

variable {temp path other : P} {empty contents : C} {op : DiskOp P C}

theorem touched_writeTemp (hop : op ∈ writeTemp temp path empty contents)
    (htemp : other ≠ temp) : other ∉ op.touched := by
  simp only [writeTemp, List.mem_cons, List.not_mem_nil, or_false] at hop
  rcases hop with rfl | rfl | rfl | rfl <;> simp [DiskOp.touched, htemp]

theorem touched_atomicWrite (hop : op ∈ atomicWrite temp path empty contents)
    (htemp : other ≠ temp) (hpath : other ≠ path) : other ∉ op.touched := by
  rw [atomicWrite, List.mem_append, List.mem_append, List.mem_singleton,
    List.mem_singleton] at hop
  rcases hop with (hop | rfl) | rfl
  · exact touched_writeTemp hop htemp
  · simp [DiskOp.touched, htemp, hpath]
  · simp [DiskOp.touched, hpath]

variable [DecidableEq P] {ops : List (DiskOp P C)}

/-- No other file is affected, wherever the write is interrupted. -/
theorem atomicWrite_frame
    (hops : ops <+: atomicWrite temp path empty contents)
    (htemp : other ≠ temp) (hpath : other ≠ path) (disk : Disk P C) :
    DiskOp.runAll disk ops other = disk other :=
  DiskOp.runAll_frame
    (fun _ hop => touched_atomicWrite (hops.subset hop) htemp hpath) disk

theorem writeTemp_frame
    (hops : ops <+: writeTemp temp path empty contents)
    (htemp : other ≠ temp) (disk : Disk P C) :
    DiskOp.runAll disk ops other = disk other :=
  DiskOp.runAll_frame
    (fun _ hop => touched_writeTemp (hops.subset hop) htemp) disk

/-- After the sync, the temporary file can only hold the new contents. -/
theorem writeTemp_synced (temp path : P) (empty contents : C)
    (disk : Disk P C) :
    (DiskOp.runAll disk (writeTemp temp path empty contents) temp).visible =
        some contents ∧
      (DiskOp.runAll disk (writeTemp temp path empty contents) temp).current =
        {some contents} := by
  simp [writeTemp, DiskOp.run]

/-- The rename exposes the new contents and may still be lost. -/
theorem atomicWrite_renamed (hne : path ≠ temp) (disk : Disk P C) :
    DiskOp.runAll disk
        (writeTemp temp path empty contents ++ [.rename temp path]) path = {
      visible := some contents
      current := {some contents}
      old := (disk path).afterCrash } := by
  obtain ⟨hvisible, hcurrent⟩ := writeTemp_synced temp path empty contents disk
  rw [DiskOp.runAll_append, DiskOp.runAll_cons, DiskOp.runAll_nil, DiskOp.run,
    Function.update_self, hvisible, hcurrent,
    writeTemp_frame (List.prefix_refl _) hne]

/-- A completed write is on the disk. -/
theorem atomicWrite_complete (hne : path ≠ temp) (disk : Disk P C) :
    DiskOp.runAll disk (atomicWrite temp path empty contents) path =
      FileState.settled (some contents) := by
  rw [atomicWrite, DiskOp.runAll_append, DiskOp.runAll_cons,
    DiskOp.runAll_nil, DiskOp.run, Function.update_self,
    atomicWrite_renamed hne]
  rfl

/-- An interrupted write leaves what a crash could have left before it, or the
new contents. -/
theorem atomicWrite_interrupted (hne : path ≠ temp)
    (hops : ops <+: atomicWrite temp path empty contents)
    (disk : Disk P C) :
    (DiskOp.runAll disk ops path).afterCrash ⊆
      insert (some contents) (disk path).afterCrash := by
  rw [atomicWrite] at hops
  rcases List.prefix_concat_iff.mp hops with rfl | hops
  · rw [← atomicWrite, atomicWrite_complete hne,
      FileState.afterCrash_settled]
    exact Set.singleton_subset_iff.mpr (Set.mem_insert _ _)
  rcases List.prefix_concat_iff.mp hops with rfl | hops
  · rw [atomicWrite_renamed hne]
    exact subset_rfl
  · rw [writeTemp_frame hops hne]
    exact Set.subset_insert _ _

/-! ## Failing operations -/

/-- What a failing operation leaves.  A file which could not be created or
written may hold anything; the other operations change nothing that a reader
sees. -/
def DiskOp.FailsTo (disk after : Disk P C) : DiskOp P C → Prop
  | .create path _ => ∀ other, other ≠ path → after other = disk other
  | .write path _ => ∀ other, other ≠ path → after other = disk other
  | _ => ∀ other, (after other).visible = (disk other).visible

/-- An attempt at a list of operations: the outcome, the operations which were
executed and the disk they leave.  The first failure ends it. -/
inductive Attempt {ε : Type} [DecidableEq P] (disk : Disk P C)
    (ops : List (DiskOp P C)) :
    Except ε Unit → List (DiskOp P C) → Disk P C → Prop where
  | completed : Attempt disk ops (.ok ()) ops (DiskOp.runAll disk ops)
  | failed {done rest : List (DiskOp P C)} {op : DiskOp P C}
      {after : Disk P C} {err : ε} (stopped : done ++ op :: rest = ops)
      (fails : op.FailsTo (DiskOp.runAll disk done) after) :
      Attempt disk ops (.error err) done after

section Attempts

variable {ε : Type} {outcome : Except ε Unit} {done : List (DiskOp P C)}
  {disk after : Disk P C}

theorem Attempt.prefix_ops (h : Attempt disk ops outcome done after) :
    done <+: ops := by
  cases h with
  | completed => exact List.prefix_refl _
  | failed stopped fails => exact stopped ▸ List.prefix_append _ _

omit [DecidableEq P] in
theorem visible_of_failsTo (hop : op ∈ atomicWrite temp path empty contents)
    (hfails : op.FailsTo disk after) (htemp : other ≠ temp) :
    (after other).visible = (disk other).visible := by
  simp only [atomicWrite, writeTemp, List.mem_append, List.mem_cons,
    List.not_mem_nil, or_false] at hop
  rcases hop with ((rfl | rfl | rfl | rfl) | rfl) | rfl
  · exact hfails other
  · exact congrArg FileState.visible (hfails other htemp)
  · exact congrArg FileState.visible (hfails other htemp)
  · exact hfails other
  · exact hfails other
  · exact hfails other

/-- A reader of a file other than the temporary one sees what the executed
operations made of it. -/
theorem Attempt.visible
    (h : Attempt disk (atomicWrite temp path empty contents) outcome done after)
    (htemp : other ≠ temp) :
    (after other).visible = (DiskOp.runAll disk done other).visible := by
  cases h with
  | completed => rfl
  | @failed _ rest op _ _ stopped fails =>
      have hop : op ∈ atomicWrite temp path empty contents := by
        rw [← stopped]
        exact List.mem_append_right _ List.mem_cons_self
      exact visible_of_failsTo hop fails htemp

theorem Attempt.visible_frame
    (h : Attempt disk (atomicWrite temp path empty contents) outcome done after)
    (htemp : other ≠ temp) (hpath : other ≠ path) :
    (after other).visible = (disk other).visible := by
  rw [h.visible htemp, atomicWrite_frame h.prefix_ops htemp hpath]

/-- The rename decides what a reader of the replaced file sees. -/
theorem Attempt.visible_replaced
    (h : Attempt disk (atomicWrite temp path empty contents) outcome done after)
    (hne : path ≠ temp) :
    (.rename temp path ∈ done → (after path).visible = some contents) ∧
      (.rename temp path ∉ done →
        (after path).visible = (disk path).visible) := by
  rw [h.visible hne]
  have hdone := h.prefix_ops
  rw [atomicWrite] at hdone
  rcases List.prefix_concat_iff.mp hdone with rfl | hdone
  · rw [← atomicWrite, atomicWrite_complete hne]
    exact ⟨fun _ => rfl, fun hnot => absurd (by simp [atomicWrite]) hnot⟩
  rcases List.prefix_concat_iff.mp hdone with rfl | hdone
  · rw [atomicWrite_renamed hne]
    exact ⟨fun _ => rfl, fun hnot => absurd (by simp) hnot⟩
  · rw [writeTemp_frame hdone hne]
    refine ⟨fun hmem => ?_, fun _ => rfl⟩
    have hrename := hdone.subset hmem
    simp [writeTemp] at hrename

end Attempts

/-! ## Two replacements in a row -/

theorem prefix_append_cases {α : Type} {xs ys done : List α}
    (h : done <+: xs ++ ys) :
    done <+: xs ∨ ∃ rest, rest <+: ys ∧ done = xs ++ rest := by
  rcases List.prefix_or_prefix_of_prefix h (List.prefix_append xs ys) with
    hdone | ⟨rest, hrest⟩
  · exact Or.inl hdone
  · rw [← hrest, List.prefix_append_right_inj] at h
    exact Or.inr ⟨rest, h, hrest.symm⟩

/-- Four names listed without repetition differ from one another. -/
theorem ne_of_nodup {α : Type} {a b c d : α} (h : [a, b, c, d].Nodup) :
    a ≠ b ∧ a ≠ c ∧ a ≠ d ∧ b ≠ c ∧ b ≠ d ∧ c ≠ d := by
  simp only [List.nodup_cons, List.mem_cons, List.not_mem_nil, or_false,
    not_or] at h
  obtain ⟨⟨hab, hac, had⟩, ⟨hbc, hbd⟩, hcd, -⟩ := h
  exact ⟨hab, hac, had, hbc, hbd, hcd⟩

section TwoFiles

variable {temp₁ path₁ temp₂ path₂ : P} {contents₁ contents₂ : C}
  (hdistinct : [path₁, temp₁, path₂, temp₂].Nodup)

include hdistinct

theorem atomicWrites_complete (disk : Disk P C) :
    DiskOp.runAll disk (atomicWrite temp₁ path₁ empty contents₁ ++
        atomicWrite temp₂ path₂ empty contents₂) path₁ =
      FileState.settled (some contents₁) ∧
    DiskOp.runAll disk (atomicWrite temp₁ path₁ empty contents₁ ++
        atomicWrite temp₂ path₂ empty contents₂) path₂ =
      FileState.settled (some contents₂) := by
  obtain ⟨h11, h12, h12', h21, -, h22⟩ := ne_of_nodup hdistinct
  rw [DiskOp.runAll_append]
  refine ⟨?_, atomicWrite_complete h22 _⟩
  rw [atomicWrite_frame (List.prefix_refl _) h12' h12,
    atomicWrite_complete h11]

theorem atomicWrites_interrupted
    (hops : ops <+: atomicWrite temp₁ path₁ empty contents₁ ++
      atomicWrite temp₂ path₂ empty contents₂) (disk : Disk P C) :
    (DiskOp.runAll disk ops path₁).afterCrash ⊆
        insert (some contents₁) (disk path₁).afterCrash ∧
      (DiskOp.runAll disk ops path₂).afterCrash ⊆
        insert (some contents₂) (disk path₂).afterCrash := by
  obtain ⟨h11, h12, h12', h21, -, h22⟩ := ne_of_nodup hdistinct
  rcases prefix_append_cases hops with hfirst | ⟨rest, hrest, rfl⟩
  · refine ⟨atomicWrite_interrupted h11 hfirst disk, ?_⟩
    rw [atomicWrite_frame hfirst (Ne.symm h21) (Ne.symm h12)]
    exact Set.subset_insert _ _
  · have hframe : DiskOp.runAll disk
        (atomicWrite temp₁ path₁ empty contents₁) path₂ = disk path₂ :=
      atomicWrite_frame (List.prefix_refl _) (Ne.symm h21) (Ne.symm h12) disk
    rw [DiskOp.runAll_append]
    constructor
    · rw [atomicWrite_frame hrest h12' h12, atomicWrite_complete h11,
        FileState.afterCrash_settled]
      exact Set.singleton_subset_iff.mpr (Set.mem_insert _ _)
    · have hsecond := atomicWrite_interrupted h22 hrest
        (DiskOp.runAll disk (atomicWrite temp₁ path₁ empty contents₁))
      rwa [hframe] at hsecond

end TwoFiles

end QCoin.Support
