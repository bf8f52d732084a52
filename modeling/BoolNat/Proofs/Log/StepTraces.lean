import BoolNat.Log.Output
import BoolNat.Proofs.Log.Filter
import BoolNat.Reduction.Evaluator
set_option autoImplicit false

/-! # Step traces

An evaluator tells its steps in great numbers, so the defaults hold them back: there is a gate at
the package around the module of evaluators.  A nearer one can only stand at this module.  Unless a
filter names one of the two, its sinks therefore write no steps, whatever else it says
(`Sink.holdsTraces_of_ofFilter`).

The sink in place, if it was configured, was made from a filter that was in force when some profile
was configured, so the same is true of every sequence of actions (`Logging.HoldsTraces.run`).  The
sink that came with the library has no gates, so in a new process steps are written
(`Logging.start_writes_steps`).  The first attempt to configure a profile takes this sink away, so
it writes the steps that are told before and no others (`Logging.HoldsTraces.filter_written`).
-/

namespace BoolNat

/-- The event is one of those that evaluators tell. -/
def Event.isTrace : Event → Bool
  | .step .. | .stuck .. => true
  | .violation .. | .done .. | .population .. | .checkStart .. | .unfinished .. | .note .. => false

namespace Evaluator

/-- What an evaluator tells: the terms it reaches, and the last one again if it is stuck. -/
theorem events_run (e : Evaluator) (t : Term) :
    (e.run t).2 = (t.multistep e.maxSteps).trace.mapIdx Event.step ++
      if (t.multistep e.maxSteps).exceeded || (t.multistep e.maxSteps).last.isValue then []
      else [.stuck (t.multistep e.maxSteps).last (t.multistep e.maxSteps).steps] := by
  simp only [run]
  generalize t.multistep e.maxSteps = r
  cases r.exceeded with
  | true => simp
  | false => cases r.last.isValue <;> simp

/-- All of it is about steps. -/
theorem isTrace_of_mem_run (e : Evaluator) (t : Term) :
    ∀ event ∈ (e.run t).2, event.isTrace = true := by
  intro event hevent
  rw [events_run] at hevent
  rcases List.mem_append.mp hevent with hstep | hstuck
  · obtain ⟨n, _, rfl⟩ := List.mem_mapIdx.mp hstep
    rfl
  · split at hstuck
    · cases hstuck
    · rw [List.mem_singleton.mp hstuck]
      rfl

end Evaluator

/-- The text of a filter says something about the module of evaluators or the package around
it. -/
def LogFilter.NamesEvaluator (text : String) : Prop :=
  Names text "arith.eval" ∨ Names text "arith.eval.machine"

namespace Sink

/-- The gate of the defaults stands at the package, and none at the module of evaluators. -/
structure HoldsTraces (s : Sink) : Prop where
  package : s.gates.lookup "arith.eval" = some (.atLeast .info)
  module : s.gates.lookup "arith.eval.machine" = none

theorem holdsTraces_of_ofFilter {profile : Profile} {text : String} {sink : Sink}
    (h : ofFilter profile (.parse text) = .ok sink) (hnames : ¬ LogFilter.NamesEvaluator text) :
    sink.HoldsTraces := by
  obtain ⟨hpackage, hmodule⟩ := not_or.mp hnames
  exact ⟨(lookup_gates_of_not_names h hpackage).trans (by decide +kernel),
    (lookup_gates_of_not_names h hmodule).trans (by decide +kernel)⟩

/-- The gate at the package decides, and it is too high for steps. -/
theorem HoldsTraces.passes_eq_false {s : Sink} (h : s.HoldsTraces) {event : Event}
    (hevent : event.isTrace = true) : s.passes event.source event.level = false := by
  have hscopes : scopes "arith.eval.machine" =
      ["arith.eval.machine", "arith.eval", "arith", ""] := by decide +kernel
  have hgate : s.gate? "arith.eval.machine" = some (.atLeast .info) := by
    simp only [gate?, hscopes, List.findSome?_cons, h.module, h.package]
  have hheld : s.passes "arith.eval.machine" .debug = false := by
    simp [passes, hgate, Level.severity]
  cases event with
  | step | stuck => exact hheld
  | _ => cases hevent

end Sink

namespace Logging

/-- The sink in place, if there is one, holds steps back. -/
def HoldsTraces (s : Logging) : Prop :=
  ∀ sink, s.sink = some sink → sink.HoldsTraces

/-- The filters in force when profiles are configured, whatever comes of that. -/
def filtersInForce (s : Logging) : List Action → List String
  | [] => []
  | action :: rest =>
    match action with
    | .configure _ =>
      s.filterText.getD LogFilter.defaultText :: filtersInForce (s.act action) rest
    | .setFilter _ | .tell _ => filtersInForce (s.act action) rest

theorem written_tell (s : Logging) (event : Event) (rest : List Action) :
    s.written (.tell event :: rest) =
      if s.writes event then event :: s.written rest else s.written rest := rfl

/-- Of what is told in a row, all is written that passes. -/
theorem written_map_tell (s : Logging) (events : List Event) :
    s.written (events.map .tell) = events.filter s.writes := by
  induction events with
  | nil => rfl
  | cons event rest ih => rw [List.map_cons, written_tell, ih, List.filter_cons]

/-- What is told before a profile is configured for the first time. -/
def toldFirst : List Action → List Event
  | [] | .configure _ :: _ => []
  | .setFilter _ :: rest => toldFirst rest
  | .tell event :: rest => event :: toldFirst rest

theorem presetWrites_eq_false {s : Logging} (h : s.preset = none) (event : Event) :
    s.presetWrites event = false := by
  rw [presetWrites, h, Option.any_none]

theorem preset_act_configure {s : Logging} (h : s.preset = none ∨ s.profile = none)
    (profile : Profile) : (s.act (.configure profile)).preset = none := by
  simp only [act, configure]
  split
  · next hrecorded =>
    rcases h with hpreset | hprofile
    · exact hpreset
    · rw [hprofile] at hrecorded
      cases hrecorded
  · split <;> rfl

/-- The actions that an evaluation consists of. -/
def evaluation (e : Evaluator) (t : Term) : List Action := (e.run t).2.map .tell

/-- A filter that names the package around the module of evaluators can let the steps through. -/
theorem written_of_named (profile : Profile) (e : Evaluator) (t : Term) :
    (start.run [.setFilter (some "debug,arith.eval=debug"), .configure profile]).written
      (evaluation e t) = (e.run t).2 := by
  rw [evaluation, written_map_tell]
  refine List.filter_eq_self.mpr fun event hevent => ?_
  have htrace := e.isTrace_of_mem_run t event hevent
  have hpasses : (start.run [.setFilter (some "debug,arith.eval=debug"),
      .configure profile]).writes (.stuck .tru 0) = true := by
    cases profile <;> decide +kernel
  -- Sinks look at the module and the level of an event, which are the same for all steps.
  cases event with
  | step | stuck => exact hpasses
  | _ => cases htrace

namespace HoldsTraces

variable {s : Logging}

theorem sinkWrites_eq_false (h : s.HoldsTraces) {event : Event} (hevent : event.isTrace = true) :
    s.sinkWrites event = false := by
  unfold sinkWrites
  cases hsink : s.sink with
  | none => rfl
  | some sink => exact (h sink hsink).passes_eq_false hevent

/-- A configuration under a filter that does not name the module of evaluators or the package
around it leaves a sink that holds steps back, or none. -/
theorem configure (h : s.HoldsTraces)
    (hnames : ¬ LogFilter.NamesEvaluator (s.filterText.getD LogFilter.defaultText))
    (profile : Profile) : (s.configure profile).2.HoldsTraces := by
  unfold Logging.configure
  split
  · exact h
  · split
    · intro sink hsink
      cases hsink
    · next made hmade =>
      intro sink hsink
      cases hsink
      exact Sink.holdsTraces_of_ofFilter hmade hnames

theorem run {actions : List Action} (h : s.HoldsTraces)
    (hfilters : ∀ text ∈ s.filtersInForce actions, ¬ LogFilter.NamesEvaluator text) :
    (s.run actions).HoldsTraces := by
  induction actions generalizing s with
  | nil => exact h
  | cons action rest ih =>
    cases action with
    | setFilter text => exact ih (s := s.act (.setFilter text)) h hfilters
    | tell event => exact ih h hfilters
    | configure profile =>
      obtain ⟨hnow, hlater⟩ := List.forall_mem_cons.mp hfilters
      exact ih (h.configure hnow profile) hlater

/-- The steps that are written are those that the sink of the library writes until the first
attempt to configure a profile takes it away. -/
theorem filter_written {actions : List Action} (h : s.HoldsTraces)
    (hattempt : s.preset = none ∨ s.profile = none)
    (hfilters : ∀ text ∈ s.filtersInForce actions, ¬ LogFilter.NamesEvaluator text) :
    (s.written actions).filter Event.isTrace =
      (toldFirst actions).filter fun event => event.isTrace && s.presetWrites event := by
  induction actions generalizing s with
  | nil => rfl
  | cons action rest ih =>
    cases action with
    | setFilter text => exact ih (s := s.act (.setFilter text)) h hattempt hfilters
    | configure profile =>
      obtain ⟨hnow, hlater⟩ := List.forall_mem_cons.mp hfilters
      have hpreset := preset_act_configure hattempt profile
      refine (ih (s := s.act (.configure profile)) (h.configure hnow profile) (.inl hpreset)
        hlater).trans ?_
      simp [presetWrites_eq_false hpreset, toldFirst]
    | tell event =>
      have hrest := ih h hattempt hfilters
      cases htrace : event.isTrace with
      | true =>
        have hwrites : s.writes event = s.presetWrites event := by
          rw [writes, h.sinkWrites_eq_false htrace, Bool.or_false]
        rw [written_tell, toldFirst, List.filter_cons, htrace, Bool.true_and, hwrites]
        split
        · rw [List.filter_cons_of_pos htrace, hrest]
        · exact hrest
      | false =>
        have hskip : ¬ event.isTrace = true := by rw [htrace]; exact Bool.false_ne_true
        rw [written_tell, toldFirst, List.filter_cons, htrace, Bool.false_and]
        split
        · rw [List.filter_cons_of_neg hskip, hrest]; rfl
        · exact hrest

end HoldsTraces

/-- Before anything is configured the steps are written, since the sink that came with the library
has no gates. -/
theorem start_writes_steps :
    start.filtersInForce (evaluation ⟨10000⟩ (.pred .zero)) = [] ∧
      start.written (evaluation ⟨10000⟩ (.pred .zero)) =
        [.step 0 (.pred .zero), .step 1 .zero] ∧
      ¬ ∀ actions, (∀ text ∈ start.filtersInForce actions,
          ¬ LogFilter.Names text "arith.eval" ∧ ¬ LogFilter.Names text "arith.eval.machine") →
        ∀ event ∈ start.written actions, event.isTrace = false := by
  have hfilters : start.filtersInForce (evaluation ⟨10000⟩ (.pred .zero)) = [] := by
    decide +kernel
  have hwritten : start.written (evaluation ⟨10000⟩ (.pred .zero)) =
      [.step 0 (.pred .zero), .step 1 .zero] := by
    decide +kernel
  refine ⟨hfilters, hwritten, fun hall => ?_⟩
  have hheld := hall (evaluation ⟨10000⟩ (.pred .zero)) (by rw [hfilters]; exact nofun)
    (.step 0 (.pred .zero)) (by rw [hwritten]; exact List.mem_cons_self)
  cases hheld

/-- Nothing has been configured, and while no filter in force at a configuration says anything about
the module of evaluators or the package around it, no sink that is configured writes a step of an
evaluation, whatever the filters say about the global level and about other modules, and whatever is
configured and told in between.  So no step is written at all if there is no sink at the start.
Where the library has brought one along, it writes the steps from its level on that are told before
the first configuration, and those are all. -/
theorem written_without_traces {s : Logging} (hsink : s.sink = none) (hprofile : s.profile = none)
    (actions : List Action)
    (h : ∀ text ∈ s.filtersInForce actions,
      ¬ LogFilter.Names text "arith.eval" ∧ ¬ LogFilter.Names text "arith.eval.machine") :
    (s.preset = none → ∀ event ∈ s.written actions, event.isTrace = false) ∧
      (s.written actions).filter Event.isTrace =
        (toldFirst actions).filter (fun event => event.isTrace && s.presetWrites event) ∧
      ∀ (e : Evaluator) (t : Term), (∀ event ∈ (e.run t).2, event.isTrace = true) ∧
        (∀ event ∈ (e.run t).2, (s.run actions).sinkWrites event = false) ∧
        (s.run actions).linesFor (e.run t).2 = [] := by
  have hfilters : ∀ text ∈ s.filtersInForce actions, ¬ LogFilter.NamesEvaluator text :=
    fun text htext => not_or.mpr (h text htext)
  have hstart : s.HoldsTraces := by
    intro sink hinstalled
    rw [hsink] at hinstalled
    cases hinstalled
  have hrun := hstart.run hfilters
  have hwritten := hstart.filter_written (.inr hprofile) hfilters
  refine ⟨fun hpreset => ?_, hwritten, fun e t => ?_⟩
  · have hnone : (s.written actions).filter Event.isTrace = [] := by
      simpa [presetWrites_eq_false hpreset] using hwritten
    exact fun event hevent => Bool.eq_false_iff.mpr (List.filter_eq_nil_iff.mp hnone event hevent)
  · have htraces := e.isTrace_of_mem_run t
    have hheld : ∀ event ∈ (e.run t).2, (s.run actions).sinkWrites event = false :=
      fun event hevent => hrun.sinkWrites_eq_false (htraces event hevent)
    refine ⟨htraces, hheld, ?_⟩
    have hnone : (e.run t).2.filter (s.run actions).sinkWrites = [] := by
      refine List.filter_eq_nil_iff.mpr fun event hevent => ?_
      rw [hheld event hevent]
      exact Bool.false_ne_true
    unfold linesFor
    split
    · rfl
    · rw [hnone]
      rfl

/-- A step is told, and then both profiles are configured under filters that let through as much as
they can without naming the module of evaluators or the package around it. -/
def everythingElse : List Action :=
  [.tell (.step 0 .tru), .setFilter (some "Trace,=trace, ARITH = Trace"), .configure .cli,
    .tell (.step 0 .zero), .setFilter (some "debug,arith.eval.machine.steps=trace"),
    .configure .default, .tell (.stuck .fls 0), .tell (.note "arith" .debug "seen")]

/-- Without a sink at the start the steps alone are held back.  In a new process the first of them
is written nevertheless. -/
theorem written_everythingElse :
    (∀ text ∈ start.filtersInForce everythingElse,
      ¬ LogFilter.Names text "arith.eval" ∧ ¬ LogFilter.Names text "arith.eval.machine") ∧
      { start with preset := none }.written everythingElse = [.note "arith" .debug "seen"] ∧
      (∀ event ∈ { start with preset := none }.written everythingElse, event.isTrace = false) ∧
      (start.written everythingElse).filter Event.isTrace = [.step 0 .tru] ∧
      (start.run everythingElse).linesFor ((Evaluator.mk 5).run (.pred .zero)).2 = [] := by
  have hnames : ∀ text ∈ start.filtersInForce everythingElse,
      ¬ LogFilter.Names text "arith.eval" ∧ ¬ LogFilter.Names text "arith.eval.machine" := by
    decide +kernel
  have hempty := written_without_traces (s := { start with preset := none }) rfl rfl
    everythingElse hnames
  obtain ⟨-, hwritten, hevaluator⟩ := written_without_traces (s := start) rfl rfl
    everythingElse hnames
  exact ⟨hnames, by decide +kernel, hempty.1 rfl, hwritten, (hevaluator ⟨5⟩ (.pred .zero)).2.2⟩

end Logging

end BoolNat
