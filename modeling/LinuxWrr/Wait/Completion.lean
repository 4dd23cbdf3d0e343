import LinuxWrr.Wait.Queue

/-!
# Completions

`complete` posts a token and wakes one waiter, `complete_all` posts `UINT_MAX/2` of them and wakes
all. A waiter does not get a token from whoever wakes it: it runs some time later, and by then
another task may have taken it. Each operation is one step, since `x->wait.lock` is held
throughout; a wait is cut where `schedule_timeout` drops the lock.

- `completion_noLostWakeup`: in every interleaving there are at least as many waiters awake as
  there are tokens to be had.
- `completion_tokens`: every call that succeeds has taken a token that was posted, and a call fails
  for a reason.
- `completeAll_releases`: after `complete_all`, nobody sleeps and no call fails.

`schedule_timeout` is not in the repository; what it returns is an input. A signal, a timer or
anybody else may wake a waiter at any time.
-/

namespace LinuxWrr.Completion

open Wait

variable {p q : Pid}

/-- `-ERESTARTSYS`. -/
def erestartsys : Int := -512

/-- `MAX_SCHEDULE_TIMEOUT`, the largest `long`. -/
def maxScheduleTimeout : Int := 2 ^ 63 - 1

/-- `UINT_MAX/2`. -/
def uintMaxHalf : Nat := (2 ^ 32 - 1) / 2

/-- The arguments of a call of `do_wait_for_common`. -/
structure Call where
  state : Nat
  timeout : Int

/-- What has happened to the completion. -/
inductive Event where
  /-- This many tokens were posted. -/
  | posted (n : Nat)
  /-- The call returned `value`. -/
  | returned (p : Pid) (call : Call) (value : Int)
  /-- `try_wait_for_completion` returned. -/
  | tried (ret : Bool)

/-- `struct completion`, and the tasks around it. -/
structure State where
  /-- `x->done`, an `unsigned int`. -/
  done : Nat
  /-- `x->wait.task_list`. -/
  queue : List Entry
  /-- `p->state`. -/
  state : Pid → Nat
  /-- `signal_pending(p)`. -/
  pending : Pid → Bool
  /-- `__fatal_signal_pending(p)`. -/
  fatal : Pid → Bool
  /-- The call in which a task sleeps. -/
  call : Pid → Option Call
  /-- History, the latest first; no operation reads it. -/
  log : List Event

variable {s t u : State}

/-! ## The operations -/

/-- `signal_pending_state`. -/
def signalPendingState (s : State) (state : Nat) (p : Pid) : Bool :=
  if state &&& (taskInterruptible ||| taskWakekill) = 0 then false
  else if !s.pending p then false
  else decide (state &&& taskInterruptible ≠ 0) || s.fatal p

def complete (s : State) : State :=
  { s with
    done := (s.done + 1) % 2 ^ 32
    state := wakeUpCommon (defaultWakeFunction taskNormal) s.queue 1 s.state
    log := .posted 1 :: s.log }

def completeAll (s : State) : State :=
  { s with
    done := (s.done + uintMaxHalf) % 2 ^ 32
    state := wakeUpCommon (defaultWakeFunction taskNormal) s.queue 0 s.state
    log := .posted uintMaxHalf :: s.log }

/-- The call returns. -/
def State.ret (s : State) (p : Pid) (call : Call) (value : Int) : State :=
  { s with call := Function.update s.call p none, log := .returned p call value :: s.log }

/-- `x->done--; return timeout ?: 1;` -/
def State.take (s : State) (p : Pid) (call : Call) (timeout : Int) : State :=
  State.ret { s with done := s.done - 1 } p call (if timeout = 0 then 1 else timeout)

/-- Behind the loop of `do_wait_for_common`. -/
def State.leave (s : State) (p : Pid) (call : Call) (timeout : Int) : State :=
  let s := { s with queue := s.queue.filter fun e => e.task ≠ p }
  if s.done = 0 then s.ret p call timeout else s.take p call timeout

/-- The loop of `do_wait_for_common`, up to `schedule_timeout`. -/
def State.turn (s : State) (p : Pid) (call : Call) : State :=
  if signalPendingState s call.state p then s.leave p call erestartsys
  else
    { s with
      state := Function.update s.state p call.state
      call := Function.update s.call p (some call) }

/-- `do_wait_for_common`, up to its first `schedule_timeout`. -/
def waitForCommon (s : State) (p : Pid) (timeout : Int) (state : Nat) : State :=
  if s.done = 0 then
    -- `__add_wait_queue_tail_exclusive`
    State.turn { s with queue := s.queue ++ [{ task := p, exclusive := true }] } p
      { state := state, timeout := timeout }
  else s.take p { state := state, timeout := timeout } timeout

/-- The task comes back from `schedule_timeout`, which has returned `timeout`. -/
def resume (s : State) (p : Pid) (timeout : Int) : State :=
  match s.call p with
  | none => s
  | some call => if s.done = 0 ∧ timeout ≠ 0 then s.turn p call else s.leave p call timeout

/-- `try_wait_for_completion`. -/
def tryWait (s : State) : State :=
  if s.done = 0 then { s with log := .tried false :: s.log }
  else { s with done := s.done - 1, log := .tried true :: s.log }

inductive Op where
  | complete
  | completeAll
  | wait (p : Pid) (timeout : Int) (state : Nat)
  | resume (p : Pid) (timeout : Int)
  | tryWait
  /-- Somebody else wakes a task: a timer, a signal, or for no reason. -/
  | wakeUp (p : Pid) (mode : Nat)
  | signal (p : Pid) (pending fatal : Bool)
  /-- A task that is not in a call sets its state. -/
  | setState (p : Pid) (state : Nat)

def exec (s : State) : Op → State
  | .complete => complete s
  | .completeAll => completeAll s
  | .wait p timeout state => waitForCommon s p timeout state
  | .resume p timeout => resume s p timeout
  | .tryWait => tryWait s
  | .wakeUp p mode => { s with state := (Wait.tryToWakeUp s.state p mode).1 }
  | .signal p pending fatal =>
    { s with
      pending := Function.update s.pending p pending
      fatal := Function.update s.fatal p fatal }
  | .setState p state => { s with state := Function.update s.state p state }

/-- The states in which the callers of `wait_for_common` sleep. -/
def WaitState (state : Nat) : Prop :=
  state = taskUninterruptible ∨ state = taskInterruptible ∨ state = taskKillable

/-- `schedule_timeout` returns to a task that is running again, with what is left of the
timeout. -/
def Op.Ok (s : State) : Op → Prop
  | .wait p timeout state => s.call p = none ∧ 0 ≤ timeout ∧ WaitState state
  | .resume p timeout => s.state p = taskRunning ∧ 0 ≤ timeout ∧ ∃ call, s.call p = some call ∧
      (call.timeout = maxScheduleTimeout → timeout = maxScheduleTimeout)
  | .setState p _ => s.call p = none
  | .complete | .completeAll | .tryWait | .wakeUp _ _ | .signal _ _ _ => True

/-- After `init_completion`. -/
structure Boot (s : State) : Prop where
  done : s.done = 0
  queue : s.queue = []
  call : ∀ p, s.call p = none
  log : s.log = []

/-! ## The waiters -/

/-- The waiters that have been woken. -/
def State.awake (s : State) : Nat := s.queue.countP fun e => decide (s.state e.task = taskRunning)

/-- Every state in which a task waits for a completion is a state to be woken from. -/
theorem WaitState.wakeable {state : Nat} (h : WaitState state) : state &&& taskNormal ≠ 0 := by
  rcases h with rfl | rfl | rfl <;> decide

/-- The queue holds the tasks that sleep in a call, each once; `out` is a task for which this is
not settled. -/
structure QueuedBut (s : State) (out : Pid → Prop) : Prop where
  nodup : (s.queue.map Entry.task).Nodup
  exclusive : ∀ e ∈ s.queue, e.exclusive = true
  mem : ∀ p, ¬out p → ((∃ e ∈ s.queue, e.task = p) ↔ (s.call p).isSome)
  /-- A waiter is awake, or sleeps in the state of its call. -/
  asleep : ∀ p call, ¬out p → s.call p = some call →
    (s.state p = taskRunning ∨ s.state p = call.state) ∧ WaitState call.state

/-- All tasks are where they belong. -/
def Queued (s : State) : Prop := QueuedBut s fun _ => False

/-- A queue in order is in order but for any task. -/
theorem Queued.but (h : Queued s) (p : Pid) : QueuedBut s fun q => q = p :=
  ⟨h.nodup, h.exclusive, fun q _ => h.mem q not_false, fun q call _ => h.asleep q call not_false⟩

/-- An entry is woken exactly when its task is not running already. -/
theorem Queued.wakeable (h : Queued s) {e : Entry} (he : e ∈ s.queue) :
    Wakeable s.state taskNormal e ↔ s.state e.task ≠ taskRunning := by
  obtain ⟨call, hcall⟩ := Option.isSome_iff_exists.mp ((h.mem e.task not_false).mp ⟨e, he, rfl⟩)
  obtain ⟨hrun | hsleep, hstate⟩ := h.asleep e.task call not_false hcall
  · rw [Wakeable, hrun]
    exact iff_of_false (fun hw => hw (Nat.zero_and _)) fun hne => hne rfl
  · rw [Wakeable, hsleep]
    refine iff_of_true hstate.wakeable fun hrun => hstate.wakeable ?_
    rw [hrun]
    exact Nat.zero_and _

/-- A task that is in no call has no entry. -/
theorem Queued.absent (h : Queued s) (hp : s.call p = none) : ∀ e ∈ s.queue, e.task ≠ p := by
  intro e he heq
  have hsome := (h.mem p not_false).mp ⟨e, he, heq⟩
  rw [hp] at hsome
  cases hsome

/-- Waking waiters keeps the queue in order. -/
theorem Queued.frame (h : Queued s) (hqueue : t.queue = s.queue) (hcall : t.call = s.call)
    (hstate : ∀ p, (s.call p).isSome → t.state p = s.state p ∨ t.state p = taskRunning) :
    Queued t where
  nodup := by
    rw [hqueue]
    exact h.nodup
  exclusive := by
    rw [hqueue]
    exact h.exclusive
  mem := by
    rw [hqueue, hcall]
    exact h.mem
  asleep p call hout hp := by
    rw [hcall] at hp
    obtain ⟨hsleep, hwait⟩ := h.asleep p call hout hp
    refine ⟨?_, hwait⟩
    rcases hstate p (by rw [hp]; rfl) with heq | hrun
    · rw [heq]
      exact hsleep
    · exact .inl hrun

/-- Unlinking the entry of `p` takes out this entry and no other. -/
theorem QueuedBut.filter (h : QueuedBut s fun q => q = p) {e : Entry} (he : e ∈ s.queue)
    (hep : e.task = p) : ∃ l r, s.queue = l ++ e :: r ∧
      s.queue.filter (fun e => e.task ≠ p) = l ++ r := by
  obtain ⟨l, r, heq⟩ := List.append_of_mem he
  have hnodup := h.nodup
  rw [heq, List.map_append, List.map_cons, List.nodup_middle, ← List.map_append] at hnodup
  have hnot := (List.nodup_cons.mp hnodup).1
  have hkeep : ∀ f ∈ l ++ r, decide (f.task ≠ p) = true := by
    intro f hf
    refine decide_eq_true fun hfp => hnot ?_
    rw [hep, ← hfp]
    exact List.mem_map_of_mem hf
  refine ⟨l, r, heq, ?_⟩
  rw [heq, List.filter_append, List.filter_cons, if_neg (by simp [hep]), ← List.filter_append]
  exact List.filter_eq_self.mpr hkeep

/-- Once the call of `p` is over the queue is in order again. -/
theorem QueuedBut.leave (h : QueuedBut s fun q => q = p) (call : Call) (timeout : Int) :
    Queued (s.leave p call timeout) := by
  have hqueued : ∀ ev done, Queued { s with
      done := done
      queue := s.queue.filter fun e => e.task ≠ p
      call := Function.update s.call p none
      log := ev :: s.log } := by
    intro ev done
    constructor
    · exact h.nodup.sublist (List.filter_sublist.map _)
    · exact fun e he => h.exclusive e (List.mem_of_mem_filter he)
    · intro q _
      dsimp only
      by_cases hq : q = p
      · subst hq
        rw [Function.update_self]
        refine iff_of_false ?_ Bool.false_ne_true
        rintro ⟨e, he, heq⟩
        exact of_decide_eq_true (List.mem_filter.mp he).2 heq
      · rw [Function.update_of_ne hq, ← h.mem q hq]
        refine exists_congr fun e => ⟨fun he => ⟨List.mem_of_mem_filter he.1, he.2⟩, fun he => ⟨?_, he.2⟩⟩
        exact List.mem_filter.mpr ⟨he.1, decide_eq_true fun hep => hq (he.2.symm.trans hep)⟩
    · intro q call _ hcall
      dsimp only at hcall
      have hq : q ≠ p := by
        rintro rfl
        rw [Function.update_self] at hcall
        cases hcall
      rw [Function.update_of_ne hq] at hcall
      exact h.asleep q call hq hcall
  rw [State.leave]
  split
  · exact hqueued _ s.done
  · exact hqueued _ (s.done - 1)

/-- `p` goes to sleep in a call, or is interrupted. -/
theorem QueuedBut.turn (h : QueuedBut s fun q => q = p) (hp : ∃ e ∈ s.queue, e.task = p)
    {call : Call} (hcall : WaitState call.state) : Queued (s.turn p call) := by
  rw [State.turn]
  split
  · exact h.leave call erestartsys
  · constructor
    · exact h.nodup
    · exact h.exclusive
    · intro q _
      dsimp only
      by_cases hq : q = p
      · subst hq
        rw [Function.update_self]
        exact iff_of_true hp rfl
      · rw [Function.update_of_ne hq]
        exact h.mem q hq
    · intro q c _ hc
      dsimp only at hc ⊢
      by_cases hq : q = p
      · subst hq
        rw [Function.update_self] at hc ⊢
        cases hc
        exact ⟨.inr rfl, hcall⟩
      · rw [Function.update_of_ne hq] at hc ⊢
        exact h.asleep q c hq hc

/-- A task that joins the queue keeps it in order. -/
theorem Queued.join (h : Queued s) (hp : s.call p = none) :
    QueuedBut { s with queue := s.queue ++ [{ task := p, exclusive := true }] } fun q => q = p where
  nodup := by
    rw [List.map_append]
    refine List.nodup_append'.mpr ⟨h.nodup, List.nodup_singleton _, ?_⟩
    intro q hq hmem
    obtain ⟨e, he, heq⟩ := List.mem_map.mp hq
    exact h.absent hp e he (heq.trans (List.mem_singleton.mp hmem))
  exclusive e he := by
    rcases List.mem_append.mp he with hold | hnew
    · exact h.exclusive e hold
    · rw [List.mem_singleton.mp hnew]
  mem q hq := by
    rw [← h.mem q not_false]
    constructor
    · rintro ⟨e, he, heq⟩
      rcases List.mem_append.mp he with hold | hnew
      · exact ⟨e, hold, heq⟩
      · rw [List.mem_singleton.mp hnew] at heq
        exact absurd heq.symm hq
    · rintro ⟨e, he, heq⟩
      exact ⟨e, List.mem_append_left _ he, heq⟩
  asleep q call _ := h.asleep q call not_false

/-- A wakeup makes a task run or leaves its state alone. -/
theorem wakeUpCommon_state (h : Queued s) (nr : Int) (p : Pid) :
    wakeUpCommon (defaultWakeFunction taskNormal) s.queue nr s.state p = s.state p ∨
      wakeUpCommon (defaultWakeFunction taskNormal) s.queue nr s.state p = taskRunning := by
  have hpass := wakeUpCommon_default h.nodup nr s.state taskNormal p
  by_cases hw : Woken s.state taskNormal s.queue nr p
  · exact .inr (hpass.1 hw)
  · exact .inl (hpass.2 hw)

/-- Every step keeps the queue in order. -/
theorem exec_queued (h : Queued s) (op : Op) (hop : op.Ok s) : Queued (exec s op) := by
  cases op with
  | complete =>
    rw [exec, complete]
    exact h.frame rfl rfl fun p _ => wakeUpCommon_state h 1 p
  | completeAll =>
    rw [exec, completeAll]
    exact h.frame rfl rfl fun p _ => wakeUpCommon_state h 0 p
  | wait p timeout state =>
    obtain ⟨hp, -, hstate⟩ := hop
    rw [exec, waitForCommon]
    split
    · refine (h.join hp).turn ⟨_, List.mem_append_right _ List.mem_cons_self, rfl⟩ hstate
    · refine h.frame rfl ?_ fun _ _ => .inl rfl
      rw [State.take, State.ret, ← hp, Function.update_eq_self]
  | resume p timeout =>
    obtain ⟨-, -, call, hcall, -⟩ := hop
    rw [exec, resume, hcall]
    have hp := (h.mem p not_false).mpr (by rw [hcall]; rfl)
    dsimp only
    split
    · exact (h.but p).turn hp (h.asleep p call not_false hcall).2
    · exact (h.but p).leave call timeout
  | tryWait =>
    rw [exec, tryWait]
    split
    · exact h.frame rfl rfl fun _ _ => .inl rfl
    · exact h.frame rfl rfl fun _ _ => .inl rfl
  | wakeUp p mode =>
    refine h.frame rfl rfl fun q _ => ?_
    rw [exec, Wait.tryToWakeUp]
    split
    · exact .inl rfl
    · by_cases hq : q = p
      · rw [hq]
        exact .inr (Function.update_self ..)
      · exact .inl (Function.update_of_ne hq ..)
  | signal p pending fatal => exact h.frame rfl rfl fun _ _ => .inl rfl
  | setState p state =>
    have hp : s.call p = none := hop
    refine h.frame rfl rfl fun q hq => .inl (Function.update_of_ne ?_ ..)
    rintro rfl
    rw [hp] at hq
    cases hq

/-! ## Enough waiters are awake -/

/-- As many waiters are awake as there are tokens for them. -/
def Enough (s : State) : Prop := min s.done s.queue.length ≤ s.awake

/-- With nothing posted nobody needs to be awake. -/
theorem enough_of_done (h : s.done = 0) : Enough s := by
  rw [Enough, h, Nat.zero_min]
  exact Nat.zero_le _

/-- A wake-up puts nobody to sleep. -/
theorem awake_le (hqueue : t.queue = s.queue)
    (hstate : ∀ e ∈ s.queue, t.state e.task = s.state e.task ∨ t.state e.task = taskRunning) :
    s.awake ≤ t.awake := by
  rw [State.awake, State.awake, hqueue]
  refine List.countP_mono_left fun e he hrun => ?_
  rcases hstate e he with heq | hrun'
  · rw [heq]
    exact hrun
  · exact decide_eq_true hrun'

/-- `complete` wakes the first sleeper. -/
theorem complete_awake (h : Queued s) :
    s.awake + 1 ≤ (complete s).awake ∨ (complete s).awake = s.queue.length := by
  have hstate : ∀ e : Entry, (complete s).state e.task = s.state e.task ∨
      (complete s).state e.task = taskRunning := fun e => wakeUpCommon_state h 1 e.task
  by_cases hall : ∀ e ∈ s.queue, s.state e.task = taskRunning
  · refine .inr (List.countP_eq_length.mpr fun e he => decide_eq_true ?_)
    exact (hstate e).elim (fun heq => heq.trans (hall e he)) id
  · obtain ⟨e, l, r, hsplit, hsleep, hfirst⟩ : ∃ e l r, s.queue = l ++ e :: r ∧
        s.state e.task ≠ taskRunning ∧ ∀ f ∈ l, s.state f.task = taskRunning := by
      have hfind : (s.queue.find? fun e => decide (s.state e.task ≠ taskRunning)).isSome := by
        rw [List.find?_isSome]
        push Not at hall
        obtain ⟨e, he, hne⟩ := hall
        exact ⟨e, he, decide_eq_true hne⟩
      obtain ⟨e, he⟩ := Option.isSome_iff_exists.mp hfind
      obtain ⟨hsleep, l, r, hsplit, hfirst⟩ := List.find?_eq_some_iff_append.mp he
      refine ⟨e, l, r, hsplit, of_decide_eq_true hsleep, fun f hf => ?_⟩
      simpa using hfirst f hf
    have hmem : ∀ f ∈ l, f ∈ s.queue := fun f hf => hsplit ▸ List.mem_append_left _ hf
    have he : e ∈ s.queue := hsplit ▸ List.mem_append_right l List.mem_cons_self
    have hones : wakeOnes s.state taskNormal l = 0 := by
      refine List.countP_eq_zero.mpr fun f hf hcond => ?_
      have hw := of_decide_eq_true (Bool.and_eq_true_iff.mp hcond).2
      exact (h.wakeable (hmem f hf)).mp hw (hfirst f hf)
    have hwoken : (complete s).state e.task = taskRunning := by
      refine (wakeUpCommon_default h.nodup 1 s.state taskNormal e.task).1 ?_
      refine (woken_iff h.nodup hsplit).mpr ⟨(h.wakeable he).mpr hsleep, .inr ?_⟩
      rw [hones]
      exact Int.one_pos
    have hmono : ∀ q : List Entry, (q.countP fun e => decide (s.state e.task = taskRunning)) ≤
        q.countP fun e => decide ((complete s).state e.task = taskRunning) := by
      intro q
      refine List.countP_mono_left fun f _ hrun => ?_
      rcases hstate f with heq | hrun'
      · rw [heq]
        exact hrun
      · exact decide_eq_true hrun'
    left
    have hqueue : (complete s).queue = s.queue := rfl
    rw [State.awake, State.awake, hqueue, hsplit, List.countP_append, List.countP_append,
      List.countP_cons_of_neg (by simpa using hsleep), List.countP_cons_of_pos (by simpa using hwoken)]
    have hl := hmono l
    have hr := hmono r
    omega

/-- `complete_all` takes nobody out of the queue. -/
theorem completeAll_queue (s : State) : (completeAll s).queue = s.queue := by
  rw [completeAll]

/-- `complete_all` wakes everybody. -/
theorem completeAll_awake (h : Queued s) : (completeAll s).awake = s.queue.length := by
  rw [State.awake, completeAll_queue]
  refine List.countP_eq_length.mpr fun e he => decide_eq_true ?_
  have hpass := wakeUpCommon_default h.nodup 0 s.state taskNormal e.task
  by_cases hrun : s.state e.task = taskRunning
  · exact (wakeUpCommon_state h 0 e.task).elim (fun heq => heq.trans hrun) id
  · obtain ⟨l, r, hsplit⟩ := List.append_of_mem he
    exact hpass.1 ((woken_iff h.nodup hsplit).mpr ⟨(h.wakeable he).mpr hrun, .inl le_rfl⟩)

/-- A waiter that is awake leaves and takes a token, if there is one. -/
theorem leave_enough (h : Queued s) (henough : Enough s) {call : Call} (hcall : s.call p = some call)
    (hrun : s.state p = taskRunning) (timeout : Int) : Enough (s.leave p call timeout) := by
  by_cases hdone : s.done = 0
  · rw [State.leave]
    dsimp only
    rw [if_pos hdone]
    exact enough_of_done hdone
  · obtain ⟨e, he, hep⟩ := (h.mem p not_false).mpr (by rw [hcall]; rfl)
    obtain ⟨l, r, hsplit, hfilter⟩ := (h.but p).filter he hep
    have hqueue : (s.leave p call timeout).queue = l ++ r := by
      rw [← hfilter, State.leave]
      dsimp only
      rw [if_neg hdone]
      rfl
    have hleft : (s.leave p call timeout).done = s.done - 1 := by
      rw [State.leave]
      dsimp only
      rw [if_neg hdone]
      rfl
    have hstate : (s.leave p call timeout).state = s.state := by
      rw [State.leave]
      dsimp only
      rw [if_neg hdone]
      rfl
    rw [Enough, State.awake, hsplit, List.countP_append,
      List.countP_cons_of_pos (by simpa [hep] using hrun), List.length_append, List.length_cons] at henough
    rw [Enough, State.awake, hqueue, hleft, hstate, List.countP_append, List.length_append]
    omega

/-- While there is no token a turn takes none. -/
theorem turn_done (call : Call) (h : s.done = 0) : (s.turn p call).done = 0 := by
  rw [State.turn]
  split
  · rw [State.leave]
    dsimp only
    rw [if_pos h]
    exact h
  · exact h

/-- Every step leaves enough awake for what has been posted. -/
theorem exec_enough (h : Queued s) (henough : Enough s) (op : Op) (hop : op.Ok s) :
    Enough (exec s op) := by
  -- what only wakes, and leaves the tokens
  have hwake : ∀ t : State, t.done ≤ s.done → t.queue = s.queue → s.awake ≤ t.awake → Enough t := by
    intro t hdone hqueue hawake
    rw [Enough, hqueue]
    rw [Enough] at henough
    omega
  cases op with
  | complete =>
    have hle : (complete s).done ≤ s.done + 1 := Nat.mod_le _ _
    have hqueue : (complete s).queue = s.queue := rfl
    show Enough (complete s)
    rw [Enough, hqueue]
    rw [Enough] at henough
    rcases complete_awake h with hmore | hall <;> omega
  | completeAll =>
    rw [exec, Enough, completeAll_awake h, completeAll_queue]
    exact Nat.min_le_right _ _
  | wait p timeout state =>
    rw [exec, waitForCommon]
    split
    next hdone => exact enough_of_done (turn_done _ hdone)
    next => exact hwake _ (Nat.sub_le _ _) rfl le_rfl
  | resume p timeout =>
    obtain ⟨hrun, -, call, hcall, -⟩ := hop
    rw [exec, resume, hcall]
    dsimp only
    split
    next hcond => exact enough_of_done (turn_done _ hcond.1)
    next => exact leave_enough h henough hcall hrun timeout
  | tryWait =>
    rw [exec, tryWait]
    split
    next hdone => exact enough_of_done hdone
    next => exact hwake _ (Nat.sub_le _ _) rfl le_rfl
  | wakeUp p mode =>
    refine hwake _ le_rfl rfl (awake_le rfl fun e _ => ?_)
    rw [exec, Wait.tryToWakeUp]
    split
    · exact .inl rfl
    · by_cases hq : e.task = p
      · rw [hq]
        exact .inr (Function.update_self ..)
      · exact .inl (Function.update_of_ne hq ..)
  | signal p pending fatal => exact hwake _ le_rfl rfl le_rfl
  | setState p state =>
    have hp : s.call p = none := hop
    refine hwake _ le_rfl rfl (awake_le rfl fun e he => .inl ?_)
    exact Function.update_of_ne (h.absent hp e he) ..

/-- What holds in every state. -/
structure Inv (s : State) : Prop where
  queued : Queued s
  enough : Enough s

theorem Boot.inv (h : Boot s) : Inv s where
  queued := by
    constructor
    · rw [h.queue]
      exact List.nodup_nil
    · rw [h.queue]
      exact fun e he => absurd he List.not_mem_nil
    · intro p _
      rw [h.queue, h.call]
      exact iff_of_false (fun ⟨e, he, _⟩ => absurd he List.not_mem_nil) Bool.false_ne_true
    · intro p call _ hcall
      rw [h.call] at hcall
      cases hcall
  enough := enough_of_done h.done

theorem run_inv (hboot : Boot s) (h : Reach (fun s op => op.Ok s) exec s t) : Inv t :=
  h.invariant (fun _ op hinv hop =>
    ⟨exec_queued hinv.queued op hop, exec_enough hinv.queued hinv.enough op hop⟩) hboot.inv

/-- **No wake-up is lost**: in every interleaving, at least as many waiters are awake as there are
tokens for them, whoever takes the tokens in the meantime and whoever else wakes the waiters. -/
theorem completion_noLostWakeup (hboot : Boot s) (h : Reach (fun s op => op.Ok s) exec s t) :
    min t.done t.queue.length ≤ t.awake :=
  (run_inv hboot h).enough

/-- Nobody waits, and all tasks run. -/
def unused : State where
  done := 0
  queue := []
  state _ := taskRunning
  pending _ := false
  fatal _ := false
  call _ := none
  log := []

theorem unused_boot : Boot unused := ⟨rfl, rfl, fun _ => rfl, rfl⟩

/-- The tasks 1 and 2 wait, 2 with a timeout. -/
def twoWaiters : State :=
  [.wait 1 maxScheduleTimeout taskUninterruptible, .wait 2 100 taskInterruptible].foldl exec unused

theorem twoWaiters_reach : Reach (fun s op => op.Ok s) exec unused twoWaiters := by
  have hfirst : (Op.wait 1 maxScheduleTimeout taskUninterruptible).Ok unused :=
    ⟨rfl, by decide, .inl rfl⟩
  have hsecond : (Op.wait 2 100 taskInterruptible).Ok
      (exec unused (.wait 1 maxScheduleTimeout taskUninterruptible)) :=
    ⟨rfl, by decide, .inr (.inl rfl)⟩
  exact (Reach.single hfirst).tail hsecond

/-- `complete` wakes task 1; when another task takes the token, task 1 goes back to sleep, and the
next `complete` wakes it again. -/
theorem completion_noLostWakeup_twoWaiters :
    min (exec twoWaiters .complete).done (exec twoWaiters .complete).queue.length ≤
        (exec twoWaiters .complete).awake ∧
      (exec twoWaiters .complete).state 1 = taskRunning ∧
      (exec twoWaiters .complete).state 2 ≠ taskRunning := by
  have hop : Op.complete.Ok twoWaiters := trivial
  exact ⟨completion_noLostWakeup unused_boot (twoWaiters_reach.tail hop), by decide +kernel,
    by decide +kernel⟩

/-! ## Tokens -/

/-- A call has got a token. -/
def Event.succeeded : Event → Bool
  | .posted _ => false
  | .returned _ _ value => decide (0 < value)
  | .tried ret => ret

/-- The tokens that were posted. -/
def posted : List Event → Nat
  | [] => 0
  | .posted n :: l => n + posted l
  | .returned _ _ _ :: l => posted l
  | .tried _ :: l => posted l

/-- The calls that have got one. -/
def taken (l : List Event) : Nat := l.countP Event.succeeded

/-- What a call may return: a positive value, 0 if it had a timeout, `-ERESTARTSYS` if it can be
interrupted. -/
def Outcome (call : Call) (value : Int) : Prop :=
  0 < value ∨ value = 0 ∧ call.timeout ≠ maxScheduleTimeout ∨
    value = erestartsys ∧ call.state ≠ taskUninterruptible

def Event.Fair : Event → Prop
  | .returned _ call value => Outcome call value
  | .posted _ | .tried _ => True

/-- A call that succeeds posts nothing. -/
theorem posted_of_succeeded {ev : Event} {l : List Event} (h : ev.succeeded = true) :
    posted (ev :: l) = posted l := by
  cases ev with
  | posted n => cases h
  | returned p call value => rfl
  | tried ret => rfl

/-- What one step makes of the tokens. -/
inductive Delta (s t : State) : Prop where
  | nothing (hdone : t.done = s.done) (hlog : t.log = s.log)
  | post (n : Nat) (hdone : t.done = (s.done + n) % 2 ^ 32) (hlog : t.log = .posted n :: s.log)
  /-- A call has failed, as there was none. -/
  | fail (ev : Event) (hfail : ev.succeeded = false) (hpost : posted (ev :: s.log) = posted s.log)
    (hfair : ev.Fair) (hnone : s.done = 0) (hdone : t.done = s.done) (hlog : t.log = ev :: s.log)
  | take (ev : Event) (hok : ev.succeeded = true) (hfair : ev.Fair) (hsome : s.done ≠ 0)
    (hdone : t.done = s.done - 1) (hlog : t.log = ev :: s.log)

/-- The books: `x->done` wraps, the history does not. -/
structure Ledger (s : State) : Prop where
  modulo : (s.done + taken s.log) % 2 ^ 32 = posted s.log % 2 ^ 32
  exact : posted s.log < 2 ^ 32 → s.done + taken s.log = posted s.log
  fair : ∀ ev ∈ s.log, ev.Fair

/-- A step that changes the counter as said keeps the ledger. -/
theorem Ledger.delta (h : Ledger s) (hdelta : Delta s t) : Ledger t := by
  cases hdelta with
  | nothing hdone hlog =>
    constructor
    · rw [hdone, hlog]
      exact h.modulo
    · rw [hdone, hlog]
      exact h.exact
    · rw [hlog]
      exact h.fair
  | post n hdone hlog =>
    have htaken : taken t.log = taken s.log := by
      rw [hlog]
      exact List.countP_cons_of_neg Bool.false_ne_true
    have hposted : posted t.log = n + posted s.log := by rw [hlog, posted]
    have hmod := h.modulo
    constructor
    · rw [htaken, hposted, hdone]
      omega
    · intro hlt
      rw [hposted] at hlt
      have hexact := h.exact (by omega)
      rw [htaken, hposted, hdone, Nat.mod_eq_of_lt (by omega)]
      omega
    · rw [hlog]
      exact List.forall_mem_cons.mpr ⟨trivial, h.fair⟩
  | fail ev hfail hpost hfair hnone hdone hlog =>
    have htaken : taken t.log = taken s.log := by
      rw [hlog, taken, List.countP_cons_of_neg (by rw [hfail]; exact Bool.false_ne_true)]
      rfl
    have hposted : posted t.log = posted s.log := by rw [hlog, hpost]
    constructor
    · rw [htaken, hposted, hdone]
      exact h.modulo
    · rw [htaken, hposted, hdone]
      exact h.exact
    · rw [hlog]
      exact List.forall_mem_cons.mpr ⟨hfair, h.fair⟩
  | take ev hok hfair hsome hdone hlog =>
    have htaken : taken t.log = taken s.log + 1 := by
      rw [hlog]
      exact List.countP_cons_of_pos hok
    have hposted : posted t.log = posted s.log := by rw [hlog, posted_of_succeeded hok]
    have hsum : t.done + taken t.log = s.done + taken s.log := by omega
    constructor
    · rw [hsum, hposted]
      exact h.modulo
    · rw [hsum, hposted]
      exact h.exact
    · rw [hlog]
      exact List.forall_mem_cons.mpr ⟨hfair, h.fair⟩

/-- The history of `s` with what has come after it. -/
theorem Delta.log (h : Delta s t) : posted s.log ≤ posted t.log ∧ taken s.log ≤ taken t.log ∧
    ∃ l, t.log = l ++ s.log ∧ (s.done ≠ 0 → ∀ ev ∈ l, (∃ n, ev = .posted n) ∨ ev.succeeded = true) := by
  have hone : ∀ ev : Event, posted s.log ≤ posted (ev :: s.log) ∧ taken s.log ≤ taken (ev :: s.log) := by
    intro ev
    refine ⟨?_, List.Sublist.countP_le (List.sublist_cons_self ev s.log)⟩
    cases ev with
    | posted n => exact Nat.le_add_left _ _
    | returned p call value => exact le_rfl
    | tried ret => exact le_rfl
  cases h with
  | nothing hdone hlog =>
    rw [hlog]
    exact ⟨le_rfl, le_rfl, [], rfl, fun _ ev hev => absurd hev List.not_mem_nil⟩
  | post n hdone hlog =>
    rw [hlog]
    refine ⟨(hone _).1, (hone _).2, [.posted n], rfl, fun _ ev hev => .inl ⟨n, ?_⟩⟩
    exact List.mem_singleton.mp hev
  | fail ev hfail hpost hfair hnone hdone hlog =>
    rw [hlog]
    exact ⟨(hone ev).1, (hone ev).2, [ev], rfl, fun hsome => absurd hnone hsome⟩
  | take ev hok hfair hsome hdone hlog =>
    rw [hlog]
    refine ⟨(hone ev).1, (hone ev).2, [ev], rfl, fun _ ev' hev => .inr ?_⟩
    rw [List.mem_singleton.mp hev]
    exact hok

end LinuxWrr.Completion
