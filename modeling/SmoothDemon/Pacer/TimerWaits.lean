import SmoothDemon.Pacer.TimerFd

/-!
# Waiting for a deadline

`TimerFd` used by one thread, which makes its calls one after the other.  A `Wait` is as good as the
last `ArmAbsolute` says (`Honoured`) iff it finds the timer set and the pipe empty: a `Disarm`
without a thread in `Wait` leaves its byte for the next one, a deadline of 0 disarms, and a deadline
is good for one `Wait` only (`always_honoured_iff`).
-/

namespace SmoothDemon.TimerFd

variable (capacity : ℕ+)

/-- The thread calls when it is in no other call. -/
def Alone (s : TimerFd) : Action → Prop
  | .armAbsolute _ => s.waiter = .out ∧ s.disarming = 0
  | .disarmSettime => s.waiter = .out ∧ s.disarming = 0
  | .disarmWrite => s.waiter = .out
  | .callWait => s.disarming = 0
  | _ => True

instance (s : TimerFd) : (a : Action) → Decidable (s.Alone a)
  | .armAbsolute _ => inferInstanceAs (Decidable (_ ∧ _))
  | .disarmSettime => inferInstanceAs (Decidable (_ ∧ _))
  | .disarmWrite => inferInstanceAs (Decidable (_ = _))
  | .callWait => inferInstanceAs (Decidable (_ = _))
  | .tick _ | .interrupted | .pollReturns | .drainRead | .readTimer => isTrue trivial

/-- A step of a program with one thread. -/
def soloStep (s : TimerFd) (a : Action) : Option TimerFd :=
  if s.Alone a then s.step capacity a else none

/-- The last of the `ArmAbsolute` and `Disarm` calls. -/
def lastCommand (log : List TimerEvent) : Option TimerEvent :=
  log.find? fun e =>
    match e with
    | .armed _ => true
    | .disarmed => true
    | _ => false

/-- The calls that are left of an undisturbed `Wait`. -/
def finish : Waiter → List Action
  | .out => []
  | .polling => [.pollReturns, .readTimer]
  | .draining => []
  | .reading => [.readTimer]

/-- Once `t` has passed, the thread leaves `Wait` with a true result. -/
def Fires (s : TimerFd) (t : UInt64) : Prop :=
  ∃ u, Transition.Run (step capacity) s (.tick (t.toNat - s.now) :: finish s.waiter) u ∧
    u.waiter = .out ∧ ∃ time, u.log = .returned true time :: s.log

/-- A `Wait` after an `ArmAbsolute`, without a `Disarm` in between, fires; and a false result
follows a `Disarm` that is newer than any `ArmAbsolute`. -/
structure Honoured (s : TimerFd) : Prop where
  fires : ∀ t, lastCommand s.log = some (.armed t) → s.waiter ≠ .out → s.Fires capacity t
  disarmed : ∀ time log, .returned false time :: log <:+ s.log → lastCommand log = some .disarmed

/-- A `Wait` after an `ArmAbsolute` finds a deadline that is not 0, no `Wait` has read its
expiration, and no byte is in the pipe. -/
def Ready (s : TimerFd) : Action → Prop
  | .callWait => ∀ t, lastCommand s.log = some (.armed t) → t ≠ 0 ∧ s.timer.isSome ∧ s.pipe = 0
  | _ => True

variable {capacity} {s s' : TimerFd} {a : Action} {t : UInt64}

theorem alone_of_soloStep (h : s.soloStep capacity a = some s') : s.Alone a ∧ Step s a s' := by
  simp only [soloStep, Option.ite_none_right_eq_some] at h
  exact ⟨h.1, step_cases h.2⟩

/-! ### When a `Wait` fires -/

theorem step_tick_max (s : TimerFd) (t : ℕ) :
    s.step capacity (.tick (t - s.now)) = some { s with now := max s.now t } := by
  have later : s.now + (t - s.now) = max s.now t := by omega
  rw [step, later]

theorem step_readTimer (reading : s.waiter = .reading) (expired : s.Expired) :
    s.step capacity .readTimer =
      some { s with timer := none, waiter := .out, log := .returned true s.now :: s.log } := by
  rw [step, if_pos reading, if_pos expired]

theorem fires_of_polling (polling : s.waiter = .polling) :
    s.Fires capacity t ↔ s.pipe = 0 ∧ ∃ d ∈ s.timer, d ≤ max s.now t.toNat := by
  unfold Fires
  rw [polling]
  constructor
  · rintro ⟨u, run, -⟩
    obtain ⟨s₁, ticked, run⟩ := Transition.run_cons.1 run
    obtain ⟨s₂, poll, run⟩ := Transition.run_cons.1 run
    obtain ⟨s₃, read, -⟩ := Transition.run_cons.1 run
    obtain rfl := Option.some.inj ((step_tick_max s t.toNat).symm.trans ticked)
    cases step_cases poll with
    | wake _ _ => cases step_cases read with
      | fire reading _ => cases reading
      | again reading _ => cases reading
    | expire _ empty expired => exact ⟨empty, expired⟩
  · rintro ⟨empty, expired⟩
    have poll : step capacity { s with now := max s.now t.toNat } .pollReturns =
        some { s with now := max s.now t.toNat, waiter := .reading } := by
      rw [step, if_pos ⟨polling, .inr expired⟩, if_neg (by simp [empty])]
    refine ⟨_, Transition.run_cons.2 ⟨_, step_tick_max s t.toNat, Transition.run_cons.2 ⟨_, poll,
      Transition.run_cons.2 ⟨_, step_readTimer rfl expired, Transition.run_nil.2 rfl⟩⟩⟩,
      rfl, _, rfl⟩

theorem fires_of_reading (reading : s.waiter = .reading) :
    s.Fires capacity t ↔ ∃ d ∈ s.timer, d ≤ max s.now t.toNat := by
  unfold Fires
  rw [reading]
  constructor
  · rintro ⟨u, run, out, -⟩
    obtain ⟨s₁, ticked, run⟩ := Transition.run_cons.1 run
    obtain ⟨s₂, read, last⟩ := Transition.run_cons.1 run
    obtain rfl := Option.some.inj ((step_tick_max s t.toNat).symm.trans ticked)
    obtain rfl := Transition.run_nil.1 last
    cases step_cases read with
    | fire _ expired => exact expired
    | again _ _ => cases out
  · intro expired
    refine ⟨_, Transition.run_cons.2 ⟨_, step_tick_max s t.toNat, Transition.run_cons.2 ⟨_,
      step_readTimer reading expired, Transition.run_nil.2 rfl⟩⟩, rfl, _, rfl⟩

theorem not_fires_of_draining (draining : s.waiter = .draining) : ¬ s.Fires capacity t := by
  unfold Fires
  rw [draining]
  rintro ⟨u, run, out, -⟩
  obtain ⟨s₁, ticked, last⟩ := Transition.run_cons.1 run
  obtain rfl := Option.some.inj ((step_tick_max s t.toNat).symm.trans ticked)
  obtain rfl := Transition.run_nil.1 last
  cases draining.symm.trans out

/-! ### Runs -/

/-- What one thread leaves behind. -/
structure Solo (s : TimerFd) : Prop where
  timer : ∀ t, lastCommand s.log = some (.armed t) → s.timer = none ∨ t ≠ 0 ∧ s.timer = some t.toNat
  nudged : 0 < s.pipe ∨ s.waiter = .draining → .disarmed ∈ s.log
  reading : s.waiter = .reading → s.Expired

theorem Solo.step (h : s.Solo) (taken : s.soloStep capacity a = some s') : s'.Solo := by
  obtain ⟨alone, taken⟩ := alone_of_soloStep taken
  cases taken with
  | tick n =>
    refine ⟨h.timer, h.nudged, fun reading => ?_⟩
    obtain ⟨d, hd, le⟩ := h.reading reading
    exact ⟨d, hd, le.trans (Nat.le_add_right _ n)⟩
  | arm t =>
    refine ⟨?_, fun nudged => List.mem_cons_of_mem _ (h.nudged nudged), ?_⟩
    · rintro t ⟨⟩
      rw [Itimerspec.deadline?_ofNanos]
      split_ifs with zero
      · exact .inl rfl
      · exact .inr ⟨fun none => zero (none ▸ rfl), rfl⟩
    · intro reading
      cases alone.1.symm.trans reading
  | clear =>
    refine ⟨fun _ _ => .inl rfl, fun nudged => List.mem_cons_of_mem _ (h.nudged nudged), ?_⟩
    intro reading
    cases alone.1.symm.trans reading
  | nudge pending byte some =>
    refine ⟨?_, fun _ => List.mem_cons_self, h.reading⟩
    rintro t ⟨⟩
  | enter out =>
    refine ⟨h.timer, ?_, by rintro ⟨⟩⟩
    rintro (bytes | other)
    · exact List.mem_cons_of_mem _ (h.nudged (.inl bytes))
    · cases other
  | interrupt polling => exact h
  | wake polling bytes => exact ⟨h.timer, fun _ => h.nudged (.inl bytes), by rintro ⟨⟩⟩
  | expire polling empty expired =>
    refine ⟨h.timer, ?_, fun _ => expired⟩
    rintro (bytes | other)
    · exact h.nudged (.inl bytes)
    · cases other
  | drain draining bytes =>
    refine ⟨h.timer, fun _ => h.nudged (.inr draining), fun reading => ?_⟩
    cases draining.symm.trans reading
  | bail draining empty =>
    exact ⟨h.timer, fun _ => List.mem_cons_of_mem _ (h.nudged (.inr draining)), by rintro ⟨⟩⟩
  | fire reading expired =>
    refine ⟨fun _ _ => .inl rfl, ?_, by rintro ⟨⟩⟩
    rintro (bytes | other)
    · exact List.mem_cons_of_mem _ (h.nudged (.inl bytes))
    · cases other
  | again reading pending => exact absurd (h.reading reading) pending

/-- Where a `Disarm` happened and no `ArmAbsolute` came last, the last was a `Disarm`. -/
theorem lastCommand_of_mem {log : List TimerEvent} (h : .disarmed ∈ log)
    (unarmed : ∀ t, lastCommand log ≠ some (.armed t)) : lastCommand log = some .disarmed := by
  cases last : lastCommand log with
  | none =>
    have none := List.find?_eq_none.1 last .disarmed h
    exact absurd rfl none
  | some e =>
    have command := List.find?_some last
    cases e with
    | armed t => exact absurd last (unarmed t)
    | disarmed => rfl
    | cleared | entered | returned _ _ => exact absurd command Bool.false_ne_true

/-- Outside of `Wait` nothing is owed to an arming. -/
theorem Honoured.of_out (honoured : s.Honoured capacity) {e : TimerEvent} {u : TimerFd}
    (out : u.waiter = .out) (log : u.log = e :: s.log)
    (new : ∀ time, e = .returned false time → lastCommand s.log = some .disarmed) :
    u.Honoured capacity where
  fires _ _ inside := absurd out inside
  disarmed := log ▸ returns_cons honoured.disarmed new

/-- Time may pass first. -/
theorem Fires.tick (h : s.Fires capacity t) (inside : s.waiter ≠ .out) (n : ℕ) :
    Fires capacity { s with now := s.now + n } t := by
  have later : max s.now t.toNat ≤ max (s.now + n) t.toNat :=
    max_le_max_right _ (Nat.le_add_right _ _)
  cases waiter : s.waiter with
  | out => exact absurd waiter inside
  | polling =>
    obtain ⟨empty, d, hd, le⟩ := (fires_of_polling waiter).1 h
    exact (fires_of_polling rfl).2 ⟨empty, d, hd, le.trans later⟩
  | draining => exact absurd h (not_fires_of_draining waiter)
  | reading =>
    obtain ⟨d, hd, le⟩ := (fires_of_reading waiter).1 h
    exact (fires_of_reading rfl).2 ⟨d, hd, le.trans later⟩

theorem honoured_step (h : s.Solo) (honoured : s.Honoured capacity)
    (taken : s.soloStep capacity a = some s') : s'.Honoured capacity ↔ s.Ready a := by
  obtain ⟨alone, taken⟩ := alone_of_soloStep taken
  cases taken with
  | tick n =>
    refine iff_of_true ⟨fun t armed inside => ?_, honoured.disarmed⟩ trivial
    exact (honoured.fires t armed inside).tick inside n
  | arm t => exact iff_of_true (honoured.of_out alone.1 rfl (by simp)) trivial
  | clear => exact iff_of_true (honoured.of_out alone.1 rfl (by simp)) trivial
  | nudge pending byte some => exact iff_of_true (honoured.of_out alone rfl (by simp)) trivial
  | enter out =>
    constructor
    · intro entered t armed
      obtain ⟨empty, d, hd, -⟩ := (fires_of_polling rfl).1 (entered.fires t armed (by rintro ⟨⟩))
      have set : s.timer.isSome := Option.isSome_of_mem hd
      rcases h.timer t armed with gone | ⟨nonzero, -⟩
      · rw [gone] at set
        cases set
      · exact ⟨nonzero, set, empty⟩
    · intro ready
      refine ⟨fun t armed _ => ?_, returns_cons honoured.disarmed (by simp)⟩
      obtain ⟨-, set, empty⟩ := ready t armed
      rcases h.timer t armed with gone | ⟨-, timer⟩
      · rw [gone] at set
        cases set
      · exact (fires_of_polling rfl).2 ⟨empty, t.toNat, timer, le_max_right _ _⟩
  | interrupt polling => exact iff_of_true honoured trivial
  | wake polling bytes =>
    refine iff_of_true ⟨fun t armed _ => ?_, honoured.disarmed⟩ trivial
    have fires := honoured.fires t armed (by rw [polling]; rintro ⟨⟩)
    exact absurd ((fires_of_polling polling).1 fires).1 bytes.ne'
  | expire polling empty expired =>
    refine iff_of_true ⟨fun t armed _ => ?_, honoured.disarmed⟩ trivial
    obtain ⟨d, hd, le⟩ := expired
    exact (fires_of_reading rfl).2 ⟨d, hd, le.trans (Nat.le_max_left _ _)⟩
  | drain draining bytes =>
    refine iff_of_true ⟨fun t armed _ => ?_, honoured.disarmed⟩ trivial
    have fires := honoured.fires t armed (by rw [draining]; rintro ⟨⟩)
    exact absurd fires (not_fires_of_draining draining)
  | bail draining empty =>
    refine iff_of_true (honoured.of_out rfl rfl fun _ _ => ?_) trivial
    refine lastCommand_of_mem (h.nudged (.inr draining)) fun t armed => ?_
    have fires := honoured.fires t armed (by rw [draining]; rintro ⟨⟩)
    exact not_fires_of_draining draining fires
  | fire reading expired => exact iff_of_true (honoured.of_out rfl rfl (by simp)) trivial
  | again reading pending => exact absurd (h.reading reading) pending

/-- One thread finds every `Wait` honoured iff it enters each ready. -/
theorem always_honoured_iff (capacity : ℕ+) (now : ℕ) (as : List Action) :
    Transition.Always (soloStep capacity) (Honoured capacity) { now } as ↔
      Transition.Each (soloStep capacity) Ready { now } as := by
  have start : Solo { now } := by
    refine ⟨fun t armed => ?_, by simp, by simp⟩
    cases armed
  have first : Honoured capacity { now } := ⟨by simp, by simp⟩
  rw [Transition.always_iff_each (I := Solo) (P := Honoured capacity)
    (fun _ _ _ h taken => h.step taken)
    (fun _ _ _ h honoured taken => honoured_step h honoured taken) start]
  exact and_iff_right first

/-- A `Disarm` nobody waits for, then a deadline, and a `Wait` that returns false at once. -/
def stale : List Action :=
  [.disarmSettime, .disarmWrite, .armAbsolute 5, .callWait, .pollReturns, .drainRead, .drainRead]

theorem not_always_honoured : ¬ ∀ (capacity : ℕ+) (now : ℕ) (as : List Action),
    Transition.Always (soloStep capacity) (Honoured capacity) { now } as := by
  intro claim
  have reached : Transition.Run (soloStep 1) {} stale
      { timer := some 5, log := [.returned false 0, .entered, .armed 5, .disarmed, .cleared] } := rfl
  have disarmed := ((claim 1 0 stale).last reached).disarmed 0 _ (List.suffix_refl _)
  exact absurd disarmed (by decide)

end SmoothDemon.TimerFd
