import Drydock.Proofs.Run.Causes
import Drydock.Proofs.Run.Launch
import Drydock.Proofs.Text.Search
import Mathlib

set_option autoImplicit false
set_option relaxedAutoImplicit false

/-!
Which actions are rejected. Main statement: unless a container says so itself, an action is rejected by
its name or by its metadata alone, for one of a few reasons, and then no call has been made, nothing
shown and nothing changed; an action made of commands is rejected exactly if one of them is missing.
-/

namespace Drydock

section Names

variable {uses defaultRef name image : String}

/-- What names an action has a slash in it, whatever comes before and after. -/
theorem ActionRef.parse_eq_unsupported_iff :
    parse uses defaultRef = .unsupported ↔ '/' ∉ uses.toList := by
  have slash : Text.occursIn ['/'] uses.toList = true ↔ '/' ∈ uses.toList := by
    rw [Text.occursIn_iff, List.singleton_infix_iff]
  unfold parse
  constructor
  · intro unsupported
    split at unsupported
    · cases unsupported
    split at unsupported
    · cases unsupported
    split at unsupported
    · cases unsupported
    · rename_i _ _ absent
      exact fun member => absent (slash.mpr member)
  · intro absent
    -- Both marks at the start of a name have a slash themselves.
    have apart (mark : List Char) (member : '/' ∈ mark) : Text.after? mark uses.toList = none :=
      Text.after?_eq_none_iff.mpr fun starts => absent (starts.subset member)
    rw [apart ['.', '/'] (by decide), apart imageScheme.toList (by decide)]
    exact if_neg fun occurs => absent (slash.mp occurs)

theorem ActionRef.parse_eq_image_iff :
    parse uses defaultRef = .image name ↔ uses = imageScheme ++ name := by
  unfold parse
  constructor
  · intro image
    split at image
    · cases image
    split at image
    · rename_i rest found
      cases image
      rw [← String.toList_inj, String.toList_append, String.toList_ofList]
      exact Text.after?_eq_some_iff.mp found
    · split at image <;> cases image
  · rintro rfl
    have relative : Text.after? ['.', '/'] (imageScheme ++ name).toList = none := by
      rw [Text.after?_eq_none_iff, String.toList_append]
      rintro ⟨rest, same⟩
      cases same
    have found : Text.after? imageScheme.toList (imageScheme ++ name).toList = some name.toList :=
      Text.after?_eq_some_iff.mpr (String.toList_append ..)
    rw [relative, found]
    exact congrArg ActionRef.image (String.ofList_toList ..)

theorem ActionRef.withoutScheme_eq_empty_iff :
    withoutScheme image = "" ↔ image = "" ∨ image = imageScheme := by
  unfold withoutScheme
  cases found : Text.after? imageScheme.toList image.toList with
  | some rest =>
    have whole : image = imageScheme ++ String.ofList rest := by
      rw [← String.toList_inj, String.toList_append, String.toList_ofList]
      exact Text.after?_eq_some_iff.mp found
    rw [whole]
    simp [imageScheme]
  | none =>
    have other : image ≠ imageScheme := by
      rintro rfl
      exact Text.after?_eq_none_iff.mp found (List.prefix_refl _)
    simp [other]

end Names

/-- A failure that rejects an action. -/
def Failure.IsRejection (f : Failure) : Prop :=
  f.kind = .unsupportedAction ∨ f.kind = .actionMetadata

/-- The metadata of an action that is used under a name are rejected by a failure. -/
inductive ActionMetadata.Refused (a : ActionMetadata) (uses : String) : Failure → Prop
  | dockerfile (kind : a.runs.using_ = "docker")
      (built : "Dockerfile".toList <+: a.runs.image.toList) :
      Refused a uses (.of .unsupportedAction "Dockerfile-based actions are not supported yet")
  | imageless (kind : a.runs.using_ = "docker")
      (imageless : a.runs.image = "" ∨ a.runs.image = ActionRef.imageScheme) :
      Refused a uses (.of .actionMetadata s!"docker action {uses} declares no image")
  | nestedUses (kind : a.runs.using_ = "composite") (nested : Step) (member : nested ∈ a.runs.steps)
      (idle : nested.run = "") (named : nested.uses ≠ "") :
      Refused a uses (.of .unsupportedAction (
        let names := ", ".intercalate
          ((a.runs.steps.filter fun s => s.uses ≠ "" ∧ s.run = "").map Step.uses)
        s!"composite action {uses} uses other actions ({names}); only run steps are supported"))
  | nestedIdle (kind : a.runs.using_ = "composite") (nested : Step) (member : nested ∈ a.runs.steps)
      (idle : nested.run = "") (nameless : ∀ s ∈ a.runs.steps, s.run = "" → s.uses = "") :
      Refused a uses (.of .unsupportedAction
        s!"composite action {uses} has a step with neither run nor uses")
  | unknown (docker : a.runs.using_ ≠ "docker") (node : Platform.nodeImage? a.runs.using_ = none)
      (composite : a.runs.using_ ≠ "composite") :
      Refused a uses (.of .unsupportedAction (
        let kind := if a.runs.using_ = "" then "<empty>" else a.runs.using_
        s!"unsupported action type: {kind}"))

/-- The action of a step is rejected by a failure where a run has its workspace: its name is that of no
action or of an image without a name, or its metadata cannot be loaded, or they are rejected. -/
inductive World.Rejects (w : World) (workingDir : String) (s : Step) : Failure → Prop
  | unknown (slashless : '/' ∉ s.uses.toList) :
      Rejects w workingDir s (.of .unsupportedAction s!"unsupported action format: {s.uses}")
  | imageless (bare : s.uses = ActionRef.imageScheme) :
      Rejects w workingDir s
        (.of .unsupportedAction s!"missing image in action reference: {s.uses}")
  | unloaded (message : String)
      (asked : w.metadataOf? workingDir s = some (.error (.refused message))) :
      Rejects w workingDir s
        (.of .actionMetadata s!"failed to load action metadata for {s.uses}: {message}")
  | refused (a : ActionMetadata) (f : Failure) (asked : w.metadataOf? workingDir s = some (.ok a))
      (refused : a.Refused s.uses f) : Rejects w workingDir s f

/-- What the action of a step can be stopped by: it is rejected, its files cannot be got, its metadata
cannot be read, or the work on a container is stopped. -/
inductive World.Stops (w : World) (workingDir : String) (s : Step) : Stop → Prop
  | rejected (f : Failure) (rejects : w.Rejects workingDir s f) : Stops w workingDir s (.failure f)
  | notCloned (c : Clone) (message : String) (answer : w.clone c = .error (.failed message)) :
      Stops w workingDir s (.failure (.of .git message))
  | noProgram (c : Clone) (program : String) (answer : w.clone c = .error (.missing program)) :
      Stops w workingDir s (.file (.other program))
  | unreadable (fault : FileFault) (asked : w.metadataOf? workingDir s = some (.error (.file fault))) :
      Stops w workingDir s (.file fault)
  | unread (fault : ReadFault) (asked : w.metadataOf? workingDir s = some (.error (.broken fault))) :
      Stops w workingDir s (.unread fault)
  | caused (reason : Stop) (causes : w.engine.Causes reason) : Stops w workingDir s reason

variable {w : World} {s : Step} {a : ActionMetadata} {f : Failure} {files : Path} {m m' : Machine}
  {reason : Stop} {workingDir : String}

theorem ActionMetadata.Refused.isRejection {uses : String} (refused : a.Refused uses f) :
    f.IsRejection := by
  cases refused with
  | imageless => exact .inr rfl
  | dockerfile | nestedUses | nestedIdle | unknown => exact .inl rfl

theorem World.Rejects.isRejection (rejects : w.Rejects workingDir s f) : f.IsRejection := by
  cases rejects with
  | unknown | imageless => exact .inl rfl
  | unloaded => exact .inr rfl
  | refused a f asked refused => exact refused.isRejection

/-- Where a rejection stops the work on a container, waiting for the container has ended in it. -/
theorem Engine.Causes.reports {e : Engine} (causes : e.Causes (.failure f)) (rejection : f.IsRejection) :
    e.Reports f := by
  cases causes with
  | refused calls c message refused => rcases rejection with kind | kind <;> cases kind
  | reported f reports => exact reports

namespace Run

section Metadata

variable {uses message : String} {steps : List Step}

theorem nestedUses_eq_nil_iff :
    (steps.filter fun s => s.uses ≠ "" ∧ s.run = "").map Step.uses = [] ↔
      ∀ s ∈ steps, s.run = "" → s.uses = "" := by
  rw [List.map_eq_nil_iff, List.filter_eq_nil_iff]
  refine forall₂_congr fun s _ => ?_
  rw [decide_eq_true_eq, not_and', not_not]

theorem compositeRefusal?_eq_none_iff :
    compositeRefusal? uses steps = none ↔ ∀ nested ∈ steps, nested.run ≠ "" := by
  unfold compositeRefusal?
  dsimp only
  constructor
  · intro accepted nested member idle
    split at accepted
    · cases accepted
    split at accepted
    · cases accepted
    · rename_i none
      exact none (List.any_eq_true.mpr ⟨nested, member, beq_iff_eq.mpr idle⟩)
  · intro commands
    have named : (steps.filter fun s => s.uses ≠ "" ∧ s.run = "").map Step.uses = [] :=
      nestedUses_eq_nil_iff.mpr fun s member idle => absurd idle (commands s member)
    rw [if_neg (not_not.mpr named), if_neg]
    intro idle
    obtain ⟨nested, member, idle⟩ := List.any_eq_true.mp idle
    exact commands nested member (beq_iff_eq.mp idle)

theorem refused_of_compositeRefusal? (kind : a.runs.using_ = "composite")
    (refusal : compositeRefusal? uses a.runs.steps = some message) :
    a.Refused uses (.of .unsupportedAction message) := by
  unfold compositeRefusal? at refusal
  dsimp only at refusal
  split at refusal
  · rename_i named
    rw [Ne, nestedUses_eq_nil_iff] at named
    push Not at named
    obtain ⟨nested, member, idle, named⟩ := named
    cases refusal
    exact .nestedUses kind nested member idle named
  · rename_i nameless
    split at refusal
    · rename_i idle
      obtain ⟨nested, member, idle⟩ := List.any_eq_true.mp idle
      cases refusal
      exact .nestedIdle kind nested member (beq_iff_eq.mp idle)
        (nestedUses_eq_nil_iff.mp (not_not.mp nameless))
    · cases refusal

example : compositeRefusal? "./act" [{ (default : Step) with run := "make" },
      { (default : Step) with uses := "./other" }, default] =
    some "composite action ./act uses other actions (./other); only run steps are supported" := by
  rfl

theorem described_of_composite (kind : a.runs.using_ = "composite") :
    described w s a files = composite w s a := by
  have other : Platform.nodeImage? "composite" = none := by decide
  unfold described
  rw [kind, if_neg (by decide), other]
  exact if_pos rfl

theorem composite_of_refusal (refusal : compositeRefusal? s.uses a.runs.steps = some message) :
    composite w s a = fail (.of .unsupportedAction message) := by
  unfold composite
  rw [refusal]

/-- Metadata that are rejected are so before anything is done. -/
theorem described_of_refused (refused : a.Refused s.uses f) : described w s a files = fail f := by
  cases refused with
  | dockerfile kind built =>
    unfold described
    rw [if_pos kind, if_pos (Text.isSome_after?_iff.mpr built)]
  | imageless kind imageless =>
    have other : ¬"Dockerfile".toList <+: a.runs.image.toList := by
      rcases imageless with same | same <;> rw [same] <;> decide
    unfold described
    rw [if_pos kind, if_neg (mt Text.isSome_after?_iff.mp other),
      if_pos (ActionRef.withoutScheme_eq_empty_iff.mpr imageless)]
  | nestedUses kind nested member idle named =>
    rw [described_of_composite kind]
    refine composite_of_refusal (if_pos ?_)
    rw [Ne, nestedUses_eq_nil_iff]
    exact fun nameless => named (nameless nested member idle)
  | nestedIdle kind nested member idle nameless =>
    rw [described_of_composite kind]
    refine composite_of_refusal ?_
    unfold compositeRefusal?
    dsimp only
    rw [if_neg (not_not.mpr (nestedUses_eq_nil_iff.mpr nameless)), if_pos]
    exact List.any_eq_true.mpr ⟨nested, member, beq_iff_eq.mpr idle⟩
  | unknown docker node composite =>
    unfold described
    rw [if_neg docker, node]
    exact if_neg composite

/-- An action is stopped by a failure that its metadata are rejected by, or as a container is. -/
theorem described_eq_error (ended : described w s a files m = (.error reason, m')) :
    (∃ f, reason = .failure f ∧ a.Refused s.uses f) ∨ w.engine.Causes reason := by
  unfold described at ended
  split at ended
  · rename_i kind
    split at ended
    · rename_i built
      cases ended
      exact .inl ⟨_, rfl, .dockerfile kind (Text.isSome_after?_iff.mp built)⟩
    split at ended
    · rename_i imageless
      cases ended
      exact .inl ⟨_, rfl, .imageless kind (ActionRef.withoutScheme_eq_empty_iff.mp imageless)⟩
    · exact .inr (StopsBy.image s _ _ _ m reason m' ended)
  rename_i docker
  cases node : Platform.nodeImage? a.runs.using_ with
  | some image =>
    rw [node] at ended
    exact .inr (StopsBy.node s _ _ files _ _ m reason m' ended)
  | none =>
    rw [node] at ended
    dsimp only at ended
    split at ended
    · rename_i kind
      cases refusal : compositeRefusal? s.uses a.runs.steps with
      | some message =>
        rw [composite_of_refusal refusal] at ended
        cases ended
        exact .inl ⟨_, rfl, refused_of_compositeRefusal? kind refusal⟩
      | none =>
        unfold composite at ended
        rw [refusal] at ended
        exact .inr (StopsBy.commands _ m reason m' ended)
    · rename_i composite
      cases ended
      exact .inl ⟨_, rfl, .unknown docker node composite⟩

/-- The metadata of an action of commands are rejected exactly if one of the commands is missing. -/
theorem refused_composite_iff (kind : a.runs.using_ = "composite") :
    (∃ f, a.Refused uses f) ↔ ∃ nested ∈ a.runs.steps, nested.run = "" := by
  constructor
  · rintro ⟨f, refused⟩
    cases refused with
    | nestedUses _ nested member idle named => exact ⟨nested, member, idle⟩
    | nestedIdle _ nested member idle nameless => exact ⟨nested, member, idle⟩
    | dockerfile other | imageless other => exact absurd (kind.symm.trans other) (by decide)
    | unknown _ _ other => exact absurd kind other
  · rintro ⟨nested, member, idle⟩
    cases refusal : compositeRefusal? uses a.runs.steps with
    | some message => exact ⟨_, refused_of_compositeRefusal? kind refusal⟩
    | none => exact absurd idle (compositeRefusal?_eq_none_iff.mp refusal nested member)

end Metadata

theorem stops_of_clone {c : Clone} (ended : clone w c m = (.error reason, m')) :
    w.Stops workingDir s reason := by
  unfold clone at ended
  rcases answer : w.clone c with (message | program) | _ <;> rw [answer] at ended <;> cases ended
  · exact .notCloned c message answer
  · exact .noProgram c program answer

theorem stops_of_loaded (asked : w.metadataOf? workingDir s = some (w.metadata files.text))
    (ended : (metadata w s.uses files >>= fun a => described w s a files) m = (.error reason, m')) :
    w.Stops workingDir s reason := by
  rcases bind_eq_error.mp ended with stopped | ⟨a, m₁, loaded, later⟩
  · unfold metadata at stopped
    rcases answer : w.metadata files.text with (message | fault | fault) | a <;>
      rw [answer] at asked stopped <;> cases stopped
    · exact .rejected _ (.unloaded message asked)
    · exact .unreadable fault asked
    · exact .unread fault asked
  · rw [(metadata_eq_ok loaded).1] at asked
    rcases described_eq_error later with ⟨f, rfl, refused⟩ | causes
    · exact .rejected f (.refused a f asked refused)
    · exact .caused reason causes

theorem action_eq_error (ended : action w s m = (.error reason, m')) :
    w.Stops m.state.workingDir s reason := by
  unfold action at ended
  cases named : ActionRef.parse s.uses w.settings.defaultRef with
  | path text =>
    rw [named] at ended
    exact stops_of_loaded (m := m) (w.metadataOf?_of_path named _) ended
  | image name =>
    rw [named] at ended
    dsimp only at ended
    split at ended
    · rename_i empty
      cases ended
      rw [empty] at named
      exact .rejected _ (.imageless (ActionRef.parse_eq_image_iff.mp named))
    · exact .caused reason (StopsBy.image s name s.inputs ∅ m reason m' ended)
  | repository name ref =>
    rw [named] at ended
    dsimp only at ended
    rcases bind_eq_error.mp ended with refused | ⟨_, m₁, cloned, later⟩
    · exact stops_of_clone refused
    · refine stops_of_loaded ?_ later
      unfold World.metadataOf?
      rw [named]
      dsimp only
      rw [clone_eq_ok cloned]
  | unsupported =>
    rw [named] at ended
    cases ended
    exact .rejected _ (.unknown (ActionRef.parse_eq_unsupported_iff.mp named))

theorem rejects_of_action (ended : (action w s m).1 = .error (.failure f))
    (rejection : f.IsRejection) : w.engine.Reports f ∨ w.Rejects m.state.workingDir s f := by
  cases action_eq_error (Prod.ext ended rfl) with
  | rejected f rejects => exact .inr rejects
  | notCloned c message answer => rcases rejection with kind | kind <;> cases kind
  | caused reason causes => exact .inl (causes.reports rejection)

/-- An action that is rejected is so before anything is done but to ask for its files. -/
theorem action_of_rejects (rejects : w.Rejects m.state.workingDir s f) :
    (action w s m).1 = .error (.failure f) ∧ m.Untouched (action w s m).2 := by
  cases rejects with
  | unknown slashless =>
    unfold action
    rw [ActionRef.parse_eq_unsupported_iff.mpr slashless]
    exact ⟨rfl, .refl m⟩
  | imageless bare =>
    have named : s.uses = ActionRef.imageScheme ++ "" := bare.trans String.append_empty.symm
    unfold action
    rw [ActionRef.parse_eq_image_iff.mpr named]
    exact ⟨rfl, .refl m⟩
  | unloaded message asked =>
    obtain ⟨files, m₁, answer, untouched, same⟩ := action_of_asked asked
    rw [same, bind_apply]
    unfold metadata
    rw [answer]
    exact ⟨rfl, untouched⟩
  | refused a f asked refused =>
    obtain ⟨files, m₁, answer, untouched, same⟩ := action_of_asked asked
    rw [same, bind_apply]
    unfold metadata
    rw [answer]
    dsimp only [pure_apply]
    rw [described_of_refused refused]
    exact ⟨rfl, untouched⟩

/-- An action whose metadata are known is rejected exactly if they are. -/
theorem rejects_iff_refused (asked : w.metadataOf? workingDir s = some (.ok a)) :
    w.Rejects workingDir s f ↔ a.Refused s.uses f := by
  constructor
  · intro rejects
    cases rejects with
    | unknown slashless =>
      unfold World.metadataOf? at asked
      rw [ActionRef.parse_eq_unsupported_iff.mpr slashless] at asked
      cases asked
    | imageless bare =>
      have named : s.uses = ActionRef.imageScheme ++ "" := bare.trans String.append_empty.symm
      unfold World.metadataOf? at asked
      rw [ActionRef.parse_eq_image_iff.mpr named] at asked
      cases asked
    | unloaded message other => cases asked.symm.trans other
    | refused a' f other refused =>
      cases asked.symm.trans other
      exact refused
  · exact .refused a f asked

/-- An action is rejected by its name, by what is answered about its metadata, or by these, and by
nothing else unless a container reports such a failure; and then no call has been made, nothing shown
and nothing changed. An action made of commands whose metadata are known is rejected exactly if one of
its steps has no command, whichever it is. -/
theorem action_rejects (w : World) (s : Step) (m : Machine) :
    (∀ f : Failure, (action w s m).1 = .error (.failure f) → f.IsRejection → ¬w.engine.Reports f →
      w.Rejects m.state.workingDir s f ∧ m.Untouched (action w s m).2) ∧
    (∀ f, w.Rejects m.state.workingDir s f → f.IsRejection ∧
      (action w s m).1 = .error (.failure f) ∧ m.Untouched (action w s m).2) ∧
    ∀ a, w.metadataOf? m.state.workingDir s = some (.ok a) → a.runs.using_ = "composite" →
      ((∃ f, w.Rejects m.state.workingDir s f) ↔ ∃ nested ∈ a.runs.steps, nested.run = "") := by
  refine ⟨fun f ended rejection own => ?_, fun f rejects => ?_, fun a asked kind => ?_⟩
  · have rejects := (rejects_of_action ended rejection).resolve_left own
    exact ⟨rejects, (action_of_rejects rejects).2⟩
  · exact ⟨rejects.isRejection, action_of_rejects rejects⟩
  · rw [← refused_composite_iff kind]
    exact exists_congr fun f => rejects_iff_refused asked

end Run

end Drydock
