import Drydock.Proofs.Run.Shadow

set_option autoImplicit false
set_option relaxedAutoImplicit false

/-!
Containers that cannot be stopped or removed. Main statement: which of them an engine refuses to
dispose of changes nothing of a run but the warnings behind the refused calls.
-/

namespace Drydock

open Engine (Call)

/-- The engine with other answers to stopping and removing containers. -/
def Engine.disposing (e : Engine) (refuses : List Call → Call → Option String) : Engine where
  refuses before c := if c.disposes then refuses before c else e.refuses before c
  identifier := e.identifier
  behaviour := e.behaviour

def World.disposing (w : World) (refuses : List Call → Call → Option String) : World :=
  { w with engine := w.engine.disposing refuses }

theorem World.twins_disposing (w : World) (refuses refuses' : List Call → Call → Option String) :
    (w.disposing refuses).Twins (w.disposing refuses') where
  refuses before c kept := by simp [World.disposing, Engine.disposing, kept]
  identifier := rfl
  behaviour := rfl
  clone := rfl
  metadata := rfl
  settings := rfl
  currentDir := rfl

namespace Event

variable (refuses : List Call → Call → Option String)

/-- The complaint about a call that should dispose of a container and is refused. -/
def complaint (before : List Call) : Event → List Event
  | .called c => if c.disposes then ((refuses before c).map (.tidyingFailed c)).toList else []
  | _ => []

/-- Events with the complaints about them put in, where some calls came before. -/
def complained : List Call → List Event → List Event
  | _, [] => []
  | before, e :: r => e :: complaint refuses before e ++ complained (before ++ e.call?.toList) r

theorem calls_cons (e : Event) (es : List Event) : calls (e :: es) = e.call?.toList ++ calls es := by
  cases found : e.call? <;> simp [calls, found]

theorem mem_complaint {before : List Call} {e x : Event} (member : x ∈ complaint refuses before e) :
    ∃ c message, x = .tidyingFailed c message := by
  cases e with
  | called c =>
    simp only [complaint] at member
    split at member
    · obtain ⟨message, -, rfl⟩ := by simpa using member
      exact ⟨c, message, rfl⟩
    · cases member
  | _ => cases member

theorem calls_complaint (before : List Call) (e : Event) : calls (complaint refuses before e) = [] := by
  refine List.filterMap_eq_nil_iff.mpr fun x member => ?_
  obtain ⟨c, message, rfl⟩ := mem_complaint refuses member
  rfl

theorem console_complaint (debug : Bool) (before : List Call) (e : Event) :
    console debug (complaint refuses before e) = [] := by
  refine List.flatMap_eq_nil_iff.mpr fun x member => ?_
  obtain ⟨c, message, rfl⟩ := mem_complaint refuses member
  rfl

theorem complained_append (before : List Call) (es es' : List Event) :
    complained refuses before (es ++ es') =
      complained refuses before es ++ complained refuses (before ++ calls es) es' := by
  induction es generalizing before with
  | nil => simp [complained, calls]
  | cons e r ih =>
    have rest := ih (before ++ e.call?.toList)
    simp only [List.cons_append, complained, rest, calls_cons, List.append_assoc]

theorem calls_complained (before : List Call) (es : List Event) :
    calls (complained refuses before es) = calls es := by
  induction es generalizing before with
  | nil => rfl
  | cons e r ih =>
    have nothing := calls_complaint refuses before e
    rw [complained, List.cons_append, calls_cons, calls_append, nothing, ih, calls_cons e r]
    rfl

theorem console_complained (debug : Bool) (before : List Call) (es : List Event) :
    console debug (complained refuses before es) = console debug es := by
  induction es generalizing before with
  | nil => rfl
  | cons e r ih =>
    have nothing := console_complaint refuses debug before e
    have rest := ih (before ++ e.call?.toList)
    simp only [console, complained, List.cons_append, List.flatMap_cons, List.flatMap_append] at *
    rw [nothing, rest]
    rfl

theorem complained_concat {e : Event} (plain : e.isDisposal = false) (es : List Event) :
    complained refuses [] (es ++ [e]) = complained refuses [] es ++ [e] := by
  have none : complaint refuses (calls es) e = [] := by
    cases e with
    | called c =>
      have kept : c.disposes = false := plain
      simp [complaint, kept]
    | _ => rfl
  rw [complained_append]
  simp [complained, none]

/-- Events without the warnings. -/
def unwarned (es : List Event) : List Event :=
  es.filter fun e => e.warning?.isNone

theorem calls_unwarned (es : List Event) : calls (unwarned es) = calls es := by
  induction es with
  | nil => rfl
  | cons e r ih =>
    have first := calls_cons e r
    cases e with
    | tidyingFailed c message => exact ih.trans first.symm
    | _ => exact (calls_cons _ _).trans (ih ▸ first.symm)

end Event

namespace Run

variable {w : World} {refuses : List Call → Call → Option String}

/-- What an engine refuses adds complaints to a run in which it refuses nothing. -/
theorem shadowFrame_complained (w : World) (refuses : List Call → Call → Option String) :
    ShadowFrame (w.disposing fun _ _ => none) (w.disposing refuses) id (Event.complained refuses []) where
  twins := w.twins_disposing _ _
  begun := rfl
  calls := Event.calls_complained refuses []
  noted es _ plain := Event.complained_concat refuses plain es
  recordJob _ _ _ _ := rfl
  recordStep _ _ _ _ := rfl
  updateEnv _ _ := rfl
  tidied c disposes := by
    intro m
    have calls : (m.recast id (Event.complained refuses [])).calls = m.calls :=
      Event.calls_complained refuses [] m.events
    have events : Event.complained refuses [] (m.events ++ [.called c]) =
        Event.complained refuses [] m.events ++
          .called c :: ((refuses m.calls c).map (.tidyingFailed c)).toList := by
      rw [Event.complained_append]
      simp [Event.complained, Event.complaint, disposes, Machine.calls]
    simp only [tidy, World.disposing, Engine.disposing, disposes, if_true, calls]
    cases answer : refuses m.calls c <;> simp [Machine.emit, Machine.recast, events, answer]

/-- Without its warnings, a run is one in which an engine refuses nothing. -/
theorem shadowFrame_unwarned (w : World) (refuses : List Call → Call → Option String) :
    ShadowFrame (w.disposing refuses) (w.disposing fun _ _ => none) id Event.unwarned where
  twins := w.twins_disposing _ _
  begun := rfl
  calls := Event.calls_unwarned
  noted es e plain := by
    have kept : e.warning?.isNone = true := by
      cases e with
      | tidyingFailed c message => cases plain
      | _ => rfl
    simp [Event.unwarned, kept]
  recordJob _ _ _ _ := rfl
  recordStep _ _ _ _ := rfl
  updateEnv _ _ := rfl
  tidied c disposes := by
    intro m
    simp only [tidy, World.disposing, Engine.disposing, disposes, if_true]
    cases refuses m.calls c <;>
      simp [Machine.emit, Machine.recast, Event.unwarned, Event.warning?]

end Run

/-- Whatever containers an engine refuses to stop or to remove, a run ends alike, with the same state,
the same data of conditions, the same calls and the same console. It has the events of a run without
warnings, with a warning behind each refused call. -/
theorem Workflow.execute_conceals_disposal (w : World)
    (refuses refuses' : List Call → Call → Option String) (workingDir : String)
    (scratch : Except FileFault String) (workflow : Workflow) (p : Plan) (c : Context) :
    let o := workflow.execute (w.disposing refuses) workingDir scratch p c
    let o' := workflow.execute (w.disposing refuses') workingDir scratch p c
    o'.ending = o.ending ∧ o'.state = o.state ∧ o'.context = o.context ∧
      Event.calls o'.events = Event.calls o.events ∧
      (∀ debug, Event.console debug o'.events = Event.console debug o.events) ∧
      ∃ es, Event.warnings es = [] ∧ o.events = Event.complained refuses [] es ∧
        o'.events = Event.complained refuses' [] es := by
  let o₀ := workflow.execute (w.disposing fun _ _ => none) workingDir scratch p c
  have recast (refuses : List Call → Call → Option String) :
      workflow.execute (w.disposing refuses) workingDir scratch p c =
        o₀.recast id (Event.complained refuses []) :=
    (Run.shadowFrame_complained w refuses).execute (fun _ _ _ _ _ _ => rfl) workingDir scratch rfl c
  have bare : o₀ = o₀.recast id Event.unwarned :=
    (Run.shadowFrame_unwarned w fun _ _ => none).execute (fun _ _ _ _ _ _ => rfl) workingDir scratch rfl c
  have silent : Event.warnings o₀.events = [] := by
    have events : o₀.events = Event.unwarned o₀.events := congrArg Outcome.events bare
    refine List.filterMap_eq_nil_iff.mpr fun e member => ?_
    rw [events] at member
    exact Option.isNone_iff_eq_none.mp (List.mem_filter.mp member).2
  intro o o'
  have first : o = o₀.recast id (Event.complained refuses []) := recast refuses
  have second : o' = o₀.recast id (Event.complained refuses' []) := recast refuses'
  rw [first, second]
  refine ⟨rfl, rfl, rfl, ?_, fun debug => ?_, o₀.events, silent, rfl, rfl⟩
  · exact (Event.calls_complained refuses' [] _).trans (Event.calls_complained refuses [] _).symm
  · exact (Event.console_complained refuses' debug [] _).trans
      (Event.console_complained refuses debug [] _).symm

end Drydock
