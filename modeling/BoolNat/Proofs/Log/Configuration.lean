import BoolNat.Log.Logging
set_option autoImplicit false

/-! # Sink and recorded profile

Two things are kept between configurations, the sink and the profile, and they are not changed
together: an attempt to make a sink takes the old one away first and records its profile last.
So the sink is what the last attempt made, while the recorded profile is that of the last
attempt that made something (`run_sink`, `run_profile`).

A sink that is there is always one of the recorded profile.  The converse holds exactly as long
as no attempt has failed since one succeeded (`sink_of_recorded_profile`): from then on the
recorded profile has no sink, and configuring that profile again changes nothing
(`recorded_profile_without_sink`).
-/

namespace BoolNat

/-- A sink made for a profile is a sink of that profile. -/
theorem Sink.profile_of_ofFilter {profile : Profile} {filter : LogFilter} {sink : Sink}
    (h : Sink.ofFilter profile filter = .ok sink) : sink.profile = profile := by
  unfold Sink.ofFilter at h
  split at h
  · cases h
  · split at h
    · cases h
    · cases h; rfl

namespace Logging

/-- The profile that is recorded has its sink installed. -/
def HasRecordedSink (s : Logging) : Prop :=
  ∀ profile, s.profile = some profile → ∃ sink, s.sink = some sink ∧ sink.profile = profile

/-- What came of the attempts to make a sink, oldest first.  A configuration of the recorded
profile is no attempt. -/
def attempts (s : Logging) : List Action → List (Except LogError Sink)
  | [] => []
  | .configure profile :: rest =>
    if s.profile = some profile then s.attempts rest
    else Sink.ofFilter profile s.filter :: attempts (s.act (.configure profile)) rest
  | .setFilter text :: rest => attempts (s.act (.setFilter text)) rest
  | .tell _ :: rest => s.attempts rest

/-! ## One configuration -/

theorem act_configure_of_recorded {s : Logging} {profile : Profile}
    (h : s.profile = some profile) : s.act (.configure profile) = s := by
  simp [act, configure, h]

/-- An attempt leaves the sink that it made, or none. -/
theorem sink_act_configure {s : Logging} {profile : Profile} (h : s.profile ≠ some profile) :
    (s.act (.configure profile)).sink = (Sink.ofFilter profile s.filter).toOption := by
  simp only [act, configure, if_neg h]
  cases Sink.ofFilter profile s.filter <;> rfl

/-- An attempt records its profile if it made a sink. -/
theorem profile_act_configure {s : Logging} {profile : Profile} (h : s.profile ≠ some profile) :
    (s.act (.configure profile)).profile =
      ((Sink.ofFilter profile s.filter).toOption.map Sink.profile).or s.profile := by
  simp only [act, configure, if_neg h]
  cases hmade : Sink.ofFilter profile s.filter with
  | error e => rfl
  | ok sink =>
    have hprofile := Sink.profile_of_ofFilter hmade
    simp [Except.toOption, hprofile]

/-! ## Runs -/

/-- The last of some outcomes: what it made, or what was there if there are none. -/
theorem getLast?_cons_map {α β : Type} (f : α → β) (a : α) (rest : List α) (before : β) :
    ((a :: rest).getLast?.map f).getD before = (rest.getLast?.map f).getD (f a) := by
  rw [List.getLast?_cons]
  cases rest.getLast? <;> rfl

/-- The sink is what the last attempt made. -/
theorem run_sink (s : Logging) (actions : List Action) :
    (s.run actions).sink = ((s.attempts actions).getLast?.map Except.toOption).getD s.sink := by
  induction actions generalizing s with
  | nil => rfl
  | cons action rest ih =>
    have hrun : s.run (action :: rest) = (s.act action).run rest := rfl
    cases action with
    | setFilter text => rw [hrun, ih]; rfl
    | tell event => rw [hrun, ih]; rfl
    | configure profile =>
      by_cases h : s.profile = some profile
      · rw [hrun, act_configure_of_recorded h, ih, attempts, if_pos h]
      · rw [hrun, ih, attempts, if_neg h, getLast?_cons_map, sink_act_configure h]

/-- The sinks that were made. -/
def made (outcomes : List (Except LogError Sink)) : List Sink :=
  outcomes.filterMap Except.toOption

/-- The recorded profile is that of the last sink that was made. -/
theorem run_profile (s : Logging) (actions : List Action) :
    (s.run actions).profile =
      ((made (s.attempts actions)).getLast?.map Sink.profile).or s.profile := by
  induction actions generalizing s with
  | nil => rfl
  | cons action rest ih =>
    have hrun : s.run (action :: rest) = (s.act action).run rest := rfl
    cases action with
    | setFilter text => rw [hrun, ih]; rfl
    | tell event => rw [hrun, ih]; rfl
    | configure profile =>
      by_cases h : s.profile = some profile
      · rw [hrun, act_configure_of_recorded h, ih, attempts, if_pos h]
      · rw [hrun, ih, attempts, if_neg h, profile_act_configure h]
        cases Sink.ofFilter profile s.filter with
        | error e => rfl
        | ok sink =>
          have hmade : made (.ok sink :: attempts (s.act (.configure profile)) rest) =
              sink :: made (attempts (s.act (.configure profile)) rest) := rfl
          rw [hmade, List.getLast?_cons]
          cases (made (attempts (s.act (.configure profile)) rest)).getLast? <;> rfl

/-- The last of some outcomes, if it made a sink, is the last sink that was made. -/
theorem getLast?_made_of_ok {outcomes : List (Except LogError Sink)} {sink : Sink}
    (h : outcomes.getLast? = some (.ok sink)) : (made outcomes).getLast? = some sink := by
  obtain ⟨earlier, rfl⟩ := List.getLast?_eq_some_iff.mp h
  simp [made, List.filterMap_append, Except.toOption]

/-! ## From the start -/

section
variable (actions : List Action)

theorem run_start_sink :
    (start.run actions).sink = (start.attempts actions).getLast?.bind Except.toOption := by
  rw [run_sink]
  cases (start.attempts actions).getLast? <;> rfl

theorem run_start_profile :
    (start.run actions).profile =
      (made (start.attempts actions)).getLast?.map Sink.profile := by
  rw [run_profile]
  exact Option.or_none

/-- A sink that is there is of the recorded profile. -/
theorem run_start_profile_of_sink {sink : Sink} (h : (start.run actions).sink = some sink) :
    (start.run actions).profile = some sink.profile := by
  rw [run_start_sink, Option.bind_eq_some_iff] at h
  obtain ⟨outcome, hlast, hok⟩ := h
  cases outcome with
  | error e => cases hok
  | ok last =>
    cases hok
    rw [run_start_profile, getLast?_made_of_ok hlast]; rfl

/-- If the recorded profile has its sink and yet the last attempt failed, nothing has been
recorded. -/
theorem made_eq_nil_of_hasRecordedSink (hhas : (start.run actions).HasRecordedSink)
    {e : LogError} (hlast : (start.attempts actions).getLast? = some (.error e)) :
    made (start.attempts actions) = [] := by
  cases hmade : (made (start.attempts actions)).getLast? with
  | none => exact List.getLast?_eq_none_iff.mp hmade
  | some sink =>
    have hprofile := run_start_profile actions
    rw [hmade] at hprofile
    obtain ⟨installed, hinstalled, _⟩ := hhas _ hprofile
    rw [run_start_sink, hlast] at hinstalled
    cases hinstalled

/-- If a failure of the last attempt is no failure after a success, the recorded profile has
its sink. -/
theorem hasRecordedSink_of_made_eq_nil
    (h : ∀ e, (start.attempts actions).getLast? = some (.error e) →
      made (start.attempts actions) = []) : (start.run actions).HasRecordedSink := by
  intro profile hprofile
  rw [run_start_profile, Option.map_eq_some_iff] at hprofile
  obtain ⟨sink, hmade, rfl⟩ := hprofile
  refine ⟨sink, ?_, rfl⟩
  rw [run_start_sink]
  cases hlast : (start.attempts actions).getLast? with
  | none =>
    rw [List.getLast?_eq_none_iff.mp hlast] at hmade
    cases hmade
  | some outcome =>
    cases outcome with
    | error e =>
      rw [h e hlast] at hmade
      cases hmade
    | ok last => exact (getLast?_made_of_ok hlast).symm.trans hmade

end

/-- After any actions, the sink is what the last attempt made and the recorded profile is that
of the last attempt that made one; a sink that is there is of the recorded profile; and the
recorded profile has its sink unless the last attempt failed after an earlier one had
succeeded. -/
theorem sink_of_recorded_profile (actions : List Action) :
    (start.run actions).sink = (start.attempts actions).getLast?.bind Except.toOption ∧
      (start.run actions).profile =
        (made (start.attempts actions)).getLast?.map Sink.profile ∧
      (∀ sink, (start.run actions).sink = some sink →
        (start.run actions).profile = some sink.profile) ∧
      ((start.run actions).HasRecordedSink ↔
        ∀ e, (start.attempts actions).getLast? = some (.error e) →
          made (start.attempts actions) = []) := by
  refine ⟨run_start_sink actions, run_start_profile actions, ?_, ?_, ?_⟩
  · intro sink h
    exact run_start_profile_of_sink actions h
  · intro hhas e hlast
    exact made_eq_nil_of_hasRecordedSink actions hhas hlast
  · intro h
    exact hasRecordedSink_of_made_eq_nil actions h

/-- The command line is configured, then the other profile under a filter that names no level,
then the command line again, with no filter set. -/
def failedSwitch : List Action :=
  [.configure .cli, .setFilter (some "foo"), .configure .default, .setFilter none,
    .configure .cli]

/-- A failed configuration of another profile leaves the recorded one without a sink, and with
the filter mended, configuring the recorded profile does not bring it back. -/
theorem recorded_profile_without_sink :
    (start.run failedSwitch).profile = some .cli ∧ (start.run failedSwitch).sink = none ∧
      ¬ ∀ actions, (start.run actions).HasRecordedSink := by
  have hprofile : (start.run failedSwitch).profile = some .cli := by decide +kernel
  have hsink : (start.run failedSwitch).sink = none := by decide +kernel
  refine ⟨hprofile, hsink, ?_⟩
  intro hall
  obtain ⟨sink, hinstalled, _⟩ := hall failedSwitch .cli hprofile
  rw [hsink] at hinstalled
  cases hinstalled

end Logging

end BoolNat
