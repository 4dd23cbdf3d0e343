import LinuxWrr.Sched.Slices
import LinuxWrr.Sched.Shares

/-!
# The path buffer

Both WRR files decide between the foreground and the background slice by the second
character of the path that `task_group_path` leaves in a static buffer. For a group without
a path it clears the first character only, so that the one that is read is what an earlier
call wrote.

- `History`: the states after any sequence of slice decisions for other tasks, with anything
  else in between that leaves the buffer alone.
- `SameSlice`: the interval and the refill of a task are the same in two states.
- `slice_history_iff`: **the slice depends on the task's group and priority alone exactly when
  the group has a path, or no group has one that makes a background task**.
-/

namespace LinuxWrr

variable {cfg : Config} {s t s₁ s₂ : System} {c : Cpu} {p q : Pid} {tg prio : Nat}
  {o o₁ o₂ : Outside}

/-! ## What the slice is -/

/-- The slice for a foreground or background task of priority `rtPriority`. -/
def Config.sliceFor (cfg : Config) (fore : Bool) (rtPriority : Nat) : Nat :=
  match cfg.wrr with
  | .basic => if fore then cfg.wrrForeTimeslice else cfg.wrrBackTimeslice
  | .rmlfq => Rmlfq.sliceAt cfg fore (99 - rtPriority)

/-- The slice that is asked for depends on the path in the buffer and on the priority. -/
theorem getRrIntervalWrr_eq (cfg : Config) (s : System) (p : Pid) :
    (getRrIntervalWrr cfg s (some p)).1 =
      cfg.sliceFor (s.foregroundOf cfg (s.task p).schedTaskGroup) (s.task p).rtPriority := by
  unfold getRrIntervalWrr Config.sliceFor
  cases cfg.wrr with
  | basic => rfl
  | rmlfq => exact Rmlfq.interval_eq cfg s p

/-- A background slice is shorter than every foreground slice, unless both are empty. -/
theorem sliceFor_eq_iff (cfg : Config) (n m : Nat) :
    cfg.sliceFor true n = cfg.sliceFor false m ↔ cfg.wrrForeTimeslice = 0 := by
  have hback : cfg.wrrBackTimeslice < cfg.wrrForeTimeslice ∨
      cfg.wrrForeTimeslice = 0 ∧ cfg.wrrBackTimeslice = 0 := by
    unfold Config.wrrBackTimeslice Config.wrrForeTimeslice
    omega
  unfold Config.sliceFor
  cases cfg.wrr with
  | basic =>
    show cfg.wrrForeTimeslice = cfg.wrrBackTimeslice ↔ cfg.wrrForeTimeslice = 0
    omega
  | rmlfq =>
    show cfg.wrrForeTimeslice * ((99 - n) / 10 + 1) = cfg.wrrBackTimeslice ↔
      cfg.wrrForeTimeslice = 0
    have hle : cfg.wrrForeTimeslice ≤ cfg.wrrForeTimeslice * ((99 - n) / 10 + 1) :=
      Nat.le_mul_of_pos_right _ (by omega)
    constructor
    · intro heq
      omega
    · intro hzero
      rw [hzero, Nat.zero_mul]
      omega

/-- A path has a first character, so that the second one is the path's, or the NUL. -/
theorem foregroundOf_path {a : Char} {rest : List Char}
    (h : (cfg.group tg).path = some (a :: rest)) (s : System) :
    s.foregroundOf cfg tg = (rest.head?.getD '\x00' != 'b') := by
  show ((taskGroupPath cfg s tg).groupPath 1 != 'b') = _
  rw [taskGroupPath_of_path h, writePath_one]

/-- Without a path the second character is the one that was there. -/
theorem taskGroupPath_none (h : (cfg.group tg).path = none) (s : System) :
    (taskGroupPath cfg s tg).groupPath 1 = s.groupPath 1 := by
  unfold TaskGroup.path at h
  unfold taskGroupPath
  cases hauto : (cfg.group tg).autogroupPath with
  | some path =>
    rw [hauto] at h
    cases h
  | none =>
    rw [hauto] at h
    dsimp only at h
    rw [h]
    rfl

/-- For a group without a path the buffer keeps what the last group left in it. -/
theorem foregroundOf_none (h : (cfg.group tg).path = none) (s : System) :
    s.foregroundOf cfg tg = (s.groupPath 1 != 'b') := by
  show ((taskGroupPath cfg s tg).groupPath 1 != 'b') = _
  rw [taskGroupPath_none h]

/-! ## Slice decisions -/

/-- The slice of `p` expires at a tick. -/
def System.Expires (s : System) (p : Pid) : Prop :=
  (s.task p).policy = .wrr ∧ decU32 (s.task p).timeSlice = 0

/-- The tick hook of the file that is built. -/
def taskTickWrr (cfg : Config) (s : System) (c : Cpu) (p : Pid) (o : Outside) : System :=
  (wrrSchedClass cfg).taskTick s c p o

namespace Basic

/-- Requeueing writes no task: what an expired slice leaves is what the refill wrote. -/
theorem sliceExpired_task (cfg : Config) (s : System) (c : Cpu) (p : Pid) :
    (sliceExpired cfg s c p).task = (refillSlice cfg s p).task := by
  unfold sliceExpired
  dsimp only
  split <;> rfl

/-- An expired slice leaves the path of the task's group in the buffer. -/
theorem sliceExpired_groupPath (cfg : Config) (s : System) (c : Cpu) (p : Pid) :
    (sliceExpired cfg s c p).groupPath =
      (taskGroupPath cfg s (s.task p).schedTaskGroup).groupPath := by
  unfold sliceExpired
  dsimp only
  split <;> rfl

/-- Before the slice is used up nothing looks at a group. -/
theorem taskTickWrr_quiet (h : ¬s.Expires p) : (taskTickWrr cfg s c p).groupPath = s.groupPath := by
  rcases taskTickWrr_cases cfg s c p with ⟨-, heq⟩ | ⟨-, -, heq⟩ | ⟨hpolicy, hts, -⟩
  · rw [heq, updateCurrWrr_groupPath]
  · rw [heq, System.updTask_groupPath, updateCurrWrr_groupPath]
  · exact absurd ⟨hpolicy, hts⟩ h

end Basic

namespace Rmlfq

/-- Changing the stage of a task does not touch its slice. -/
theorem changeStage_timeSlice (s : System) (c : Cpu) (p : Pid) (head : Bool) (prio stage : Nat)
    (inside : Bool) (rtPriority : Nat) :
    ((changeStage s c p head prio stage inside rtPriority).task p).timeSlice =
      (s.task p).timeSlice := by
  cases inside with
  | true =>
    rw [changeStage_true, System.updTask_task, Function.update_self]
    rfl
  | false =>
    rw [changeStage_false, System.updTask_task, Function.update_self]
    rfl

/-- Requeueing a task does not touch its slice. -/
theorem requeueTaskWrr_timeSlice (cfg : Config) (s : System) (c : Cpu) (p : Pid) (head : Bool)
    (rand : UInt32) :
    ((requeueTaskWrr cfg s c p head rand).task p).timeSlice = (s.task p).timeSlice := by
  cases hm : (s.task p).stageMove cfg rand with
  | down => rw [requeueTaskWrr_down hm, changeStage_timeSlice]
  | up => rw [requeueTaskWrr_up hm, changeStage_timeSlice]
  | stay =>
    rw [requeueTaskWrr_stay hm, System.updTask_task, Function.update_self]
    rfl

/-- A tick that does not end a slice leaves the buffer alone. -/
theorem taskTickWrr_quiet {rand : UInt32} (h : ¬s.Expires p) :
    (taskTickWrr cfg s c p rand).groupPath = s.groupPath := by
  rcases taskTickWrr_cases cfg s c p rand with ⟨-, heq⟩ | ⟨-, -, heq⟩ | ⟨hpolicy, hts, -⟩
  · rw [heq, updateCurrWrr_groupPath]
  · rw [heq, System.updTask_groupPath, updateCurrWrr_groupPath]
  · exact absurd ⟨hpolicy, hts⟩ h

end Rmlfq

/-- What accounting and the used-up slice leave is not looked at. -/
theorem interval_spent (cfg : Config) (s : System) (c : Cpu) (p : Pid) :
    (getRrIntervalWrr cfg ((updateCurrWrr s c).updTask p fun t => { t with timeSlice := 0 })
      (some p)).1 = (getRrIntervalWrr cfg s (some p)).1 := by
  have hpath : ((updateCurrWrr s c).updTask p fun t => { t with timeSlice := 0 }).groupPath =
      s.groupPath := updateCurrWrr_groupPath s c
  rw [getRrIntervalWrr_eq, getRrIntervalWrr_eq, System.foregroundOf_congr hpath,
    System.updTask_task, Function.update_self, updateCurrWrr_task]

/-- **The tick refills with the interval**, in both files. -/
theorem taskTickWrr_slice (h : s.Expires p) :
    ((taskTickWrr cfg s c p o).task p).timeSlice = (getRrIntervalWrr cfg s (some p)).1 := by
  rw [← interval_spent cfg s c p]
  unfold taskTickWrr wrrSchedClass getRrIntervalWrr
  cases cfg.wrr with
  | basic =>
    show ((Basic.taskTickWrr cfg s c p).task p).timeSlice = _
    rw [Basic.taskTickWrr_eq_expired h.1 h.2, Basic.sliceExpired_task, Basic.refillSlice,
      System.updTask_task, Function.update_self]
    rfl
  | rmlfq =>
    show ((Rmlfq.taskTickWrr cfg s c p o.rand).task p).timeSlice = Rmlfq.interval cfg _ p
    rw [Rmlfq.taskTickWrr_eq_expired h.1 h.2, Rmlfq.sliceExpired, Rmlfq.requeueTaskWrr_timeSlice,
      System.setTskNeedResched_task, Rmlfq.refillSlice_task, Function.update_self]

/-- A tick leaves the buffer alone, or writes the path of the task's group. -/
theorem taskTickWrr_path (cfg : Config) (s : System) (c : Cpu) (p : Pid) (o : Outside) :
    (taskTickWrr cfg s c p o).groupPath = s.groupPath ∨
      (taskTickWrr cfg s c p o).groupPath =
        (taskGroupPath cfg s (s.task p).schedTaskGroup).groupPath := by
  unfold taskTickWrr wrrSchedClass
  by_cases h : s.Expires p
  · right
    cases cfg.wrr with
    | basic =>
      show (Basic.taskTickWrr cfg s c p).groupPath = _
      have hspent : ((updateCurrWrr s c).updTask p fun t => { t with timeSlice := 0 }).groupPath =
          s.groupPath := updateCurrWrr_groupPath s c
      rw [Basic.taskTickWrr_eq_expired h.1 h.2, Basic.sliceExpired_groupPath, System.updTask_task,
        Function.update_self, updateCurrWrr_task]
      exact taskGroupPath_groupPath_congr cfg hspent _
    | rmlfq => exact Rmlfq.taskTickWrr_groupPath h.1 h.2
  · left
    cases cfg.wrr with
    | basic => exact Basic.taskTickWrr_quiet h
    | rmlfq => exact Rmlfq.taskTickWrr_quiet h

/-- The states after slice decisions for other tasks than `p`. The buffer is zero at first, and
nothing but a slice decision writes to it. -/
inductive History (cfg : Config) (p : Pid) : System → Prop where
  | start {s : System} (hzero : s.groupPath = fun _ => '\x00') : History cfg p s
  | elsewhere {s t : System} (hs : History cfg p s) (hsame : t.groupPath = s.groupPath) :
    History cfg p t
  | tick {s : System} (hs : History cfg p s) (q : Pid) (hq : q ≠ p) (c : Cpu) (o : Outside) :
    History cfg p (taskTickWrr cfg s c q o)
  | interval {s : System} (hs : History cfg p s) (q : Pid) (hq : q ≠ p) :
    History cfg p (getRrIntervalWrr cfg s (some q)).2

/-- The slices that the interval call and the tick give `p` are the same in both states. -/
structure SameSlice (cfg : Config) (p : Pid) (s₁ s₂ : System) : Prop where
  interval : (getRrIntervalWrr cfg s₁ (some p)).1 = (getRrIntervalWrr cfg s₂ (some p)).1
  refill : s₁.Expires p → s₂.Expires p → ∀ c₁ c₂ o₁ o₂,
    ((taskTickWrr cfg s₁ c₁ p o₁).task p).timeSlice = ((taskTickWrr cfg s₂ c₂ p o₂).task p).timeSlice

/-- Two histories give the same slices when they give the same interval. -/
theorem SameSlice.of_interval
    (h : (getRrIntervalWrr cfg s₁ (some p)).1 = (getRrIntervalWrr cfg s₂ (some p)).1) :
    SameSlice cfg p s₁ s₂ where
  interval := h
  refill h₁ h₂ c₁ c₂ o₁ o₂ := by rw [taskTickWrr_slice h₁, taskTickWrr_slice h₂, h]

/-- What `autogroup_path` and `cgroup_path` write is an absolute path. -/
def Config.AbsolutePaths (cfg : Config) : Prop :=
  ∀ tg path, (cfg.group tg).path = some path → path.head? = some '/'

/-- A group whose tasks are background tasks. -/
def Config.Background (cfg : Config) (tg : Nat) : Prop :=
  ∃ path, (cfg.group tg).path = some path ∧ path[1]? = some 'b'

/-- A path that exists begins with a slash. -/
theorem exists_path (habs : cfg.AbsolutePaths) (h : (cfg.group tg).path ≠ none) :
    ∃ rest, (cfg.group tg).path = some ('/' :: rest) := by
  obtain ⟨path, hpath⟩ := Option.ne_none_iff_exists'.mp h
  have hhead := habs tg path hpath
  cases path with
  | nil => cases hhead
  | cons a rest =>
    cases hhead
    exact ⟨rest, hpath⟩

/-- The buffer after a slice decision: its second character is the old one, or that of a
path. -/
theorem taskGroupPath_one (habs : cfg.AbsolutePaths) (s : System) (tg : Nat) :
    (taskGroupPath cfg s tg).groupPath 1 = s.groupPath 1 ∨
      ((taskGroupPath cfg s tg).groupPath 1 = 'b' → cfg.Background tg) := by
  by_cases hnone : (cfg.group tg).path = none
  · exact .inl (taskGroupPath_none hnone s)
  · obtain ⟨rest, hpath⟩ := exists_path habs hnone
    refine .inr fun hb => ⟨_, hpath, ?_⟩
    rw [taskGroupPath_of_path hpath, writePath_one] at hb
    cases rest with
    | nil => cases hb
    | cons b rest => exact congrArg some hb

/-- Asking for the interval writes the path of the task's group into the buffer. -/
theorem getRrIntervalWrr_groupPath (cfg : Config) (s : System) (p : Pid) :
    (getRrIntervalWrr cfg s (some p)).2.groupPath =
      (taskGroupPath cfg s (s.task p).schedTaskGroup).groupPath := by
  unfold getRrIntervalWrr
  cases cfg.wrr <;> rfl

/-- **The invariant of histories**: unless some group is a background group, the second
character is never the one that makes a background task. -/
theorem History.one_ne (habs : cfg.AbsolutePaths) (hnone : ∀ tg, ¬cfg.Background tg)
    (h : History cfg p s) : s.groupPath 1 ≠ 'b' := by
  have hwrite : ∀ (s t : System) tg, s.groupPath 1 ≠ 'b' →
      t.groupPath = (taskGroupPath cfg s tg).groupPath → t.groupPath 1 ≠ 'b' := by
    intro s t tg hs ht hb
    rw [ht] at hb
    rcases taskGroupPath_one habs s tg with hsame | hback
    · exact hs (hsame.symm.trans hb)
    · exact hnone tg (hback hb)
  induction h with
  | start hzero =>
    rw [hzero]
    decide
  | elsewhere hs hsame ih => rwa [hsame]
  | @tick s hs q hq c o ih =>
    rcases taskTickWrr_path cfg s c q o with hsame | hpath
    · rwa [hsame]
    · exact hwrite s _ _ ih hpath
  | @interval s hs q hq ih => exact hwrite s _ _ ih (getRrIntervalWrr_groupPath cfg s q)

/-- The decision for a group is the same after every two histories. -/
def DependsOnGroup (cfg : Config) (tg prio : Nat) : Prop :=
  ∀ p s₁ s₂, History cfg p s₁ → History cfg p s₂ →
    (s₁.task p).schedTaskGroup = tg → (s₂.task p).schedTaskGroup = tg →
    (s₁.task p).rtPriority = prio → (s₂.task p).rtPriority = prio → SameSlice cfg p s₁ s₂

/-- A system with one task in the group `tg` and all others in the group `other`. -/
def twoGroups (tg other prio : Nat) : System :=
  bootWith fun p =>
    { wrrTask prio with schedTaskGroup := if p = 1 then tg else other }

/-- **The slice of a task depends on its group and priority alone exactly when** its group has a
path, or no group is a background group (or `HZ` is so low that all slices are empty). -/
theorem slice_history_iff (habs : cfg.AbsolutePaths) (tg prio : Nat) : DependsOnGroup cfg tg prio ↔
    (cfg.group tg).path ≠ none ∨ cfg.wrrForeTimeslice = 0 ∨ ∀ other, ¬cfg.Background other := by
  constructor
  · intro h
    by_contra hno
    simp only [not_or, not_not, not_forall] at hno
    obtain ⟨hnone, hfore, other, path, hpath, hb⟩ := hno
    -- one history is empty, in the other a background task has asked for its interval
    have hstart : History cfg 1 (twoGroups tg other prio) := .start rfl
    have hasked : History cfg 1 (getRrIntervalWrr cfg (twoGroups tg other prio) (some 5)).2 :=
      .interval hstart 5 (by decide)
    have htask : (getRrIntervalWrr cfg (twoGroups tg other prio) (some 5)).2.task =
        (twoGroups tg other prio).task := (getRrIntervalWrr_effect cfg _ 5).1
    have hsame := (h 1 _ _ hstart hasked rfl (by rw [htask]; rfl) rfl (by rw [htask]; rfl)).interval
    have hbuffer : (getRrIntervalWrr cfg (twoGroups tg other prio) (some 5)).2.groupPath 1 =
        'b' := by
      rw [getRrIntervalWrr_groupPath]
      show (taskGroupPath cfg (twoGroups tg other prio) other).groupPath 1 = 'b'
      rw [taskGroupPath_of_path hpath]
      have hhead := habs other path hpath
      match path, hhead, hb with
      | a :: b :: rest, _, hb =>
        rw [writePath_one]
        exact Option.some.inj hb
    rw [getRrIntervalWrr_eq, getRrIntervalWrr_eq, htask] at hsame
    have hgroup : ((twoGroups tg other prio).task 1).schedTaskGroup = tg := rfl
    rw [hgroup, foregroundOf_none hnone, foregroundOf_none hnone, hbuffer] at hsame
    exact hfore ((sliceFor_eq_iff cfg _ _).mp hsame)
  · intro hcond p s₁ s₂ h₁ h₂ hg₁ hg₂ hp₁ hp₂
    refine SameSlice.of_interval ?_
    rw [getRrIntervalWrr_eq, getRrIntervalWrr_eq, hg₁, hg₂, hp₁, hp₂]
    by_cases hnone : (cfg.group tg).path = none
    · rcases hcond with hpath | hzero | hback
      · exact absurd hnone hpath
      · have hall : ∀ fore, cfg.sliceFor fore prio = cfg.sliceFor false prio := by
          intro fore
          cases fore with
          | false => rfl
          | true => exact (sliceFor_eq_iff cfg prio prio).mpr hzero
        rw [hall, hall (s₂.foregroundOf cfg tg)]
      · have htrue : ∀ {u : System}, History cfg p u → u.foregroundOf cfg tg = true := by
          intro u hu
          rw [foregroundOf_none hnone]
          exact bne_iff_ne.mpr (hu.one_ne habs hback)
        rw [htrue h₁, htrue h₂]
    · obtain ⟨rest, hpath⟩ := exists_path habs hnone
      rw [foregroundOf_path hpath, foregroundOf_path hpath]

theorem slice_history_boot : DependsOnGroup (upConfig .rmlfq) 0 50 := by
  have habs : (upConfig .rmlfq).AbsolutePaths := by
    rintro tg path hpath
    cases hpath
    show (if tg = 1 then "/bg_non_interactive".toList else ['/']).head? = some '/'
    split <;> decide
  exact (slice_history_iff habs 0 50).mpr (.inl (by decide))

/-- As `upConfig`, and the cgroup of group 2 is NULL. -/
def nullConfig (file : WrrFile) : Config :=
  { upConfig file with
    group := fun tg =>
      { autogroupPath := none
        cgroupPath := if tg = 2 then none
          else some (if tg = 1 then "/bg_non_interactive".toList else ['/']) } }

/-- The task 1 of the group without a cgroup has a foreground slice until a background task
asks for its interval, and a background slice from then on. -/
theorem slice_history_leak :
    let s := twoGroups 2 1 50
    let after := fun file => (getRrIntervalWrr (nullConfig file) s (some 5)).2
    let slice := fun file u => (getRrIntervalWrr (nullConfig file) u (some 1)).1
    Boot s ∧ (∀ file, History (nullConfig file) 1 s ∧ History (nullConfig file) 1 (after file)) ∧
      (∀ file, (after file).task = s.task) ∧ (s.task 1).schedTaskGroup = 2 ∧
      (slice .basic s = 10 ∧ slice .basic (after .basic) = 1) ∧
      slice .rmlfq s = 50 ∧ slice .rmlfq (after .rmlfq) = 1 := by
  intro s after slice
  have hok := wrrTask_ok (show 50 ≤ 99 by decide)
  refine ⟨bootWith_boot fun p => ⟨rfl, ?_, (fun h => nomatch h), fun h => nomatch h⟩, fun file => ?_,
    fun file => (getRrIntervalWrr_effect (nullConfig file) s 5).1, rfl, by decide +kernel,
    by decide +kernel⟩
  · exact ⟨hok.rtPriority, hok.userPriority, hok.staticPrio, hok.normalPrio, hok.prio, hok.waiter,
      hok.rt, hok.wrr⟩
  · exact ⟨.start rfl, .interval (.start rfl) 5 (by decide)⟩

end LinuxWrr
