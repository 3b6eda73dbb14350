import SmoothDemon.Capture.PipeWireCapture
import SmoothDemon.Library.Run

/-!
# Stream events

`OnStateChanged` keeps `streaming_` in step with the state of the stream and never calls the state
callback; `OnParamChanged` calls it, always with `true`, and never looks at the state.  So what a
consumer of the callback was last told is right throughout a run of events iff formats are announced
only while the stream is streaming and it never starts or stops once the consumer has been told
(`always_informed_iff`).
-/

namespace SmoothDemon.PipeWireCapture

open Transition

inductive StreamEvent
  | stateChanged (old new : StreamState)
  | paramChanged (id : UInt32) (param : Option SpaParam) (now : Int64)

/-- A capture and the state its stream last reported. -/
structure Watched where
  capture : State
  stream : StreamState := .unconnected

/-- A parameter that announces a format. -/
def Announces (id : UInt32) (param : Option SpaParam) : Prop :=
  id = spaParamFormat ∧ ∃ p ∈ param, p.mediaParses = true ∧ p.rawParses = true

namespace State

variable (s : State)

/-- The streaming argument most recently passed to the state callback. -/
def told : Option Bool := s.stateCalls.head?.map Prod.fst

@[simp] theorem stateCb_onStateChanged (old new : StreamState) :
    (s.onStateChanged old new).stateCb = s.stateCb := by
  unfold onStateChanged
  split_ifs <;> rfl

@[simp] theorem told_onStateChanged (old new : StreamState) :
    (s.onStateChanged old new).told = s.told := by
  unfold onStateChanged
  split_ifs <;> rfl

theorem streaming_onStateChanged {old new : StreamState}
    (before : s.streaming = true ↔ old = .streaming) :
    (s.onStateChanged old new).streaming = true ↔ new = .streaming := by
  unfold onStateChanged
  split_ifs with entered left
  · exact iff_of_true rfl entered
  · exact iff_of_false (by decide) entered
  · rw [not_or] at left
    exact iff_of_false (mt before.1 left.1) entered

theorem onParamChanged_cases (set : s.stateCb = true) (id : UInt32) (param : Option SpaParam)
    (now : Int64) :
    (s.onParamChanged id param now).stateCb = true ∧
      (s.onParamChanged id param now).streaming = s.streaming ∧
      (Announces id param ∧ (s.onParamChanged id param now).told = some true ∨
        ¬ Announces id param ∧ (s.onParamChanged id param now).told = s.told) := by
  cases param with
  | none => exact ⟨set, rfl, .inr ⟨by simp [Announces], rfl⟩⟩
  | some p =>
    simp only [onParamChanged]
    split_ifs with other media raw
    · exact ⟨set, rfl, .inr ⟨fun h => other h.1, rfl⟩⟩
    · exact ⟨set, rfl, .inr ⟨by simp_all [Announces], rfl⟩⟩
    · exact ⟨set, rfl, .inr ⟨by simp_all [Announces], rfl⟩⟩
    · exact ⟨set, rfl, .inl ⟨by simp_all [Announces], rfl⟩⟩

end State

namespace Watched

variable (w : Watched)

/-- The stream reports each change from the state it last reported. -/
def step : StreamEvent → Option Watched
  | .stateChanged old new =>
    if old = w.stream then some { capture := w.capture.onStateChanged old new, stream := new }
    else none
  | .paramChanged id param now => some { w with capture := w.capture.onParamChanged id param now }

/-- What a consumer takes the stream to do: what it was last told or, before that, what it assumed,
if it assumed anything. -/
def belief (assumed : Option Bool) : Option Bool := w.capture.told.or assumed

/-- `streaming_` is the state of the stream, and a consumer that has an opinion shares it. -/
structure Informed (assumed : Option Bool) (w : Watched) : Prop where
  streaming : w.capture.streaming = true ↔ w.stream = .streaming
  agrees : ∀ b ∈ w.belief assumed, b = w.capture.streaming

/-- The stream does not start or stop once the consumer has an opinion, and formats are announced
while it is streaming. -/
def Harmless (assumed : Option Bool) (w : Watched) : StreamEvent → Prop
  | .stateChanged old new => w.belief assumed = none ∨ (old = .streaming ↔ new = .streaming)
  | .paramChanged id param _ => Announces id param → w.stream = .streaming

/-- The callback is set, and `streaming_` is right. -/
structure Tracked (w : Watched) : Prop where
  set : w.capture.stateCb = true
  streaming : w.capture.streaming = true ↔ w.stream = .streaming

variable {w} {w' : Watched} {e : StreamEvent}

theorem step_stateChanged {old new : StreamState}
    (taken : w.step (.stateChanged old new) = some w') :
    old = w.stream ∧ { capture := w.capture.onStateChanged old new, stream := new } = w' := by
  simpa [step] using taken

theorem tracked_step (h : w.Tracked) (taken : w.step e = some w') : w'.Tracked := by
  cases e with
  | stateChanged old new =>
    obtain ⟨rfl, rfl⟩ := step_stateChanged taken
    exact ⟨(w.capture.stateCb_onStateChanged _ _).trans h.set,
      w.capture.streaming_onStateChanged h.streaming⟩
  | paramChanged id param now =>
    cases taken
    obtain ⟨set, same, -⟩ := w.capture.onParamChanged_cases h.set id param now
    exact ⟨set, same ▸ h.streaming⟩

variable {assumed : Option Bool}

theorem agrees_iff_of_some {b : Bool} (h : w.belief assumed = some b) :
    (∀ c ∈ w.belief assumed, c = w.capture.streaming) ↔ b = w.capture.streaming := by
  rw [h]
  exact ⟨fun all => all b rfl, fun same c hc => Option.some.inj hc ▸ same⟩

theorem informed_step (h : w.Tracked) (before : w.Informed assumed)
    (taken : w.step e = some w') : w'.Informed assumed ↔ w.Harmless assumed e := by
  have after := tracked_step h taken
  have split : w'.Informed assumed ↔ ∀ b ∈ w'.belief assumed, b = w'.capture.streaming :=
    ⟨fun informed => informed.agrees, fun agrees => ⟨after.streaming, agrees⟩⟩
  rw [split]
  cases e with
  | stateChanged old new =>
    obtain ⟨rfl, rfl⟩ := step_stateChanged taken
    have same : belief ⟨w.capture.onStateChanged w.stream new, new⟩ assumed = w.belief assumed := by
      rw [belief, belief, State.told_onStateChanged]
    cases opinion : w.belief assumed with
    | none =>
      rw [same, opinion]
      exact iff_of_true (by simp) (.inl opinion)
    | some b =>
      rw [agrees_iff_of_some (same.trans opinion), before.agrees b opinion, Bool.eq_iff_iff,
        h.streaming, after.streaming, Harmless, opinion]
      exact (or_iff_right (by simp)).symm
  | paramChanged id param now =>
    cases taken
    obtain ⟨-, streaming, ⟨announces, told⟩ | ⟨silent, told⟩⟩ :=
      w.capture.onParamChanged_cases h.set id param now
    · have opinion : belief { w with capture := w.capture.onParamChanged id param now } assumed =
          some true := by
        rw [belief, told]
        rfl
      rw [agrees_iff_of_some opinion, streaming, eq_comm, h.streaming]
      exact ⟨fun stream _ => stream, fun harmless => harmless announces⟩
    · have same : belief { w with capture := w.capture.onParamChanged id param now } assumed =
          w.belief assumed := by
        rw [belief, told, belief]
      rw [same, streaming]
      exact iff_of_true before.agrees fun announces => absurd announces silent

/-- A capture with a state callback, before the first event of its stream. -/
def unconnected (s : State) : Watched where
  capture := { s with stateCb := true, streaming := false, stateCalls := [] }

theorem tracked_unconnected (s : State) : (unconnected s).Tracked where
  set := rfl
  streaming := iff_of_false (by simp [unconnected]) (by simp [unconnected])

/-- `streaming_` itself is never wrong. -/
theorem always_tracked (s : State) (events : List StreamEvent) :
    Always step Tracked (unconnected s) events :=
  always_of_each (fun _ _ _ h (_ : True) => tracked_step h) (tracked_unconnected s)
    fun _ _ _ _ _ _ _ => trivial

theorem informed_unconnected_iff (s : State) :
    (unconnected s).Informed assumed ↔ assumed ≠ some true := by
  have agrees : (∀ b ∈ (unconnected s).belief assumed, b = false) ↔ assumed ≠ some true := by
    rcases assumed with _ | _ | _ <;> simp [unconnected, belief, State.told]
  rw [← agrees]
  exact ⟨fun h => h.agrees, fun h => ⟨(tracked_unconnected s).streaming, h⟩⟩

/-- Whatever the consumer assumes at first: it is never wrong iff it does not start by assuming a
running stream and every event is harmless. -/
theorem always_informed_iff (assumed : Option Bool) (s : State) (events : List StreamEvent) :
    Always step (Informed assumed) (unconnected s) events ↔
      assumed ≠ some true ∧ Each step (Harmless assumed) (unconnected s) events := by
  rw [← informed_unconnected_iff s]
  exact always_iff_each (fun _ _ _ => tracked_step) (fun _ _ _ => informed_step)
    (tracked_unconnected s)

/-- The usual start of a stream: the format is announced while it is paused. -/
theorem not_always_informed : ¬ ∀ (s : State) (events : List StreamEvent),
    Always step (Informed none) (unconnected s) events := by
  intro claim
  let param : SpaParam :=
    { mediaParses := true, rawParses := true, format := {}, hasModifier := false }
  have informed := claim {} [.stateChanged .unconnected .connecting,
    .stateChanged .connecting .paused, .paramChanged spaParamFormat (some param) 0]
  have wrong := (informed.last rfl).agrees true rfl
  exact absurd wrong (by decide)

end Watched

end SmoothDemon.PipeWireCapture
