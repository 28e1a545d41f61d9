import Drydock.Action.Reference
import Drydock.Proofs.Git.Cloning
import Drydock.Proofs.Path
import Drydock.Proofs.Run.Agreement
import Drydock.Proofs.Text.Search
import Drydock.Run.Action
import Mathlib

set_option autoImplicit false
set_option relaxedAutoImplicit false

/-!
Where the repositories of actions are kept. Main statements: two repositories at refs have one place in the
cache exactly if their names differ in slashes and hyphens alone and their refs write one path, or if the
ref of one leads to the place of the other; and the place is below the cache exactly if the ref is
relative and does not lead out, or is absolute and leads there by itself.
-/

namespace Drydock

namespace ActionRef

variable {uses defaultRef cache name ref name₁ name₂ ref₁ ref₂ : String}

/-- A text that names a repository: there is a slash in it, and it starts as neither a path nor an image. -/
structure NamesRepository (uses : String) : Prop where
  slash : '/' ∈ uses.toList
  noPath : ¬['.', '/'] <+: uses.toList
  noImage : ¬imageScheme.toList <+: uses.toList

instance (uses : String) : Decidable (NamesRepository uses) :=
  decidable_of_iff ('/' ∈ uses.toList ∧ ¬['.', '/'] <+: uses.toList ∧ ¬imageScheme.toList <+: uses.toList)
    ⟨fun marks => ⟨marks.1, marks.2.1, marks.2.2⟩, fun named => ⟨named.slash, named.noPath, named.noImage⟩⟩

theorem NamesRepository.exists_parse (named : NamesRepository uses) (defaultRef : String) :
    ∃ name ref, parse uses defaultRef = .repository name ref := by
  have slash : Text.occursIn ['/'] uses.toList = true :=
    Text.occursIn_iff.mpr ((List.singleton_infix_iff _ _).mpr named.slash)
  unfold parse
  rw [Text.after?_eq_none_iff.mpr named.noPath, Text.after?_eq_none_iff.mpr named.noImage]
  exact ⟨_, _, if_pos slash⟩

section Folder

/-- The name of a repository in one piece. -/
def folder (name : String) : String :=
  String.ofList (Text.replaceAll ['/'] ['-'] name.toList)

/-- A name that leads nowhere from where it is. -/
def IsBare (name : String) : Prop :=
  name = "" ∨ name = "."

instance (name : String) : Decidable (IsBare name) :=
  inferInstanceAs (Decidable (_ ∨ _))

/-- Characters that are one and the same in a folder. -/
def Alike (c d : Char) : Prop :=
  c = d ∨ c ∈ ['/', '-'] ∧ d ∈ ['/', '-']

theorem toList_folder (name : String) :
    (folder name).toList = name.toList.map fun c => if c = '/' then '-' else c := by
  rw [folder, String.toList_ofList, Text.replaceAll_singleton]

theorem notMem_folder (name : String) : '/' ∉ (folder name).toList := by
  rw [toList_folder, List.mem_map]
  rintro ⟨c, -, slash⟩
  split at slash
  · cases slash
  · rename_i other
    exact other slash

/-- Two names have one folder exactly if they differ in slashes and hyphens alone. -/
theorem folder_eq_iff : folder name₁ = folder name₂ ↔
    List.Forall₂ Alike name₁.toList name₂.toList := by
  have alike (c d : Char) :
      ((if c = '/' then '-' else c) = if d = '/' then '-' else d) ↔ Alike c d := by
    unfold Alike
    grind
  rw [← String.toList_inj, toList_folder, toList_folder, ← List.forall₂_eq_eq_eq,
    List.forall₂_map_left_iff, List.forall₂_map_right_iff]
  simp only [alike]

theorem isBare_folder_iff : IsBare (folder name) ↔ IsBare name := by
  have empty : folder name = folder "" ↔ name = "" := by
    rw [folder_eq_iff, String.toList_empty, List.forall₂_nil_right_iff, String.toList_eq_nil_iff]
  have point : folder name = folder "." ↔ name = "." := by
    have own (c : Char) : Alike c '.' ↔ c = '.' := by simp [Alike]
    rw [folder_eq_iff, ← String.toList_inj]
    simp [List.forall₂_cons_right_iff, own]
  exact or_congr empty point

theorem hyphen_mem_folder (slash : '/' ∈ name.toList) : '-' ∈ (folder name).toList := by
  rw [toList_folder]
  exact List.mem_map.mpr ⟨'/', slash, if_pos rfl⟩

theorem not_isBare_of_mem (slash : '/' ∈ name.toList) : ¬IsBare name := by
  rintro (rfl | rfl)
  · exact absurd slash (by decide)
  · exact absurd slash (by decide)

/-- The name of an owner without hyphens and that of a repository. -/
def IsOwned (name : String) : Prop :=
  ∃ owner repository, name.toList = owner ++ '/' :: repository ∧ '-' ∉ owner ∧
    '/' ∉ owner ∧ '/' ∉ repository

theorem IsOwned.slash_mem (owned : IsOwned name) : '/' ∈ name.toList := by
  obtain ⟨owner, repository, names, -⟩ := owned
  exact names ▸ List.mem_append_right owner List.mem_cons_self

/-- The first hyphen of the folder is where the slash was. -/
theorem IsOwned.cutAt?_folder (owned : IsOwned name) :
    ∃ owner repository, name.toList = owner ++ '/' :: repository ∧
      Text.cutAt? ['-'] (folder name).toList = some (owner, repository) := by
  obtain ⟨owner, repository, names, free, whole, whole'⟩ := owned
  have kept {cs : List Char} (free : '/' ∉ cs) :
      (cs.map fun c => if c = '/' then '-' else c) = cs := by
    refine (List.map_congr_left fun c member => if_neg ?_).trans (List.map_id cs)
    rintro rfl
    exact free member
  refine ⟨owner, repository, names, ?_⟩
  rw [toList_folder, names, List.map_append, List.map_cons, if_pos rfl, kept whole, kept whole']
  exact Text.cutAt?_append_cons free

theorem IsOwned.folder_inj (owned₁ : IsOwned name₁) (owned₂ : IsOwned name₂) :
    folder name₁ = folder name₂ ↔ name₁ = name₂ := by
  refine ⟨fun same => ?_, congrArg folder⟩
  obtain ⟨_, _, names₁, cut₁⟩ := owned₁.cutAt?_folder
  obtain ⟨_, _, names₂, cut₂⟩ := owned₂.cutAt?_folder
  rw [same, cut₂] at cut₁
  cases cut₁
  rw [← String.toList_inj, names₁, names₂]

end Folder

section Place

/-- The path of a repository at a ref, seen from the cache. -/
def shelf (name ref : String) : Path :=
  (Path.parse (folder name)).child ref

theorem cachePath_eq_join (cache name ref : String) :
    cachePath cache name ref = (Path.parse cache).join (shelf name ref) :=
  Path.join_assoc ..

theorem isWritten_cachePath (cache name ref : String) : (cachePath cache name ref).IsWritten :=
  ((Path.isWritten_parse cache).child _).child ref

theorem parse_folder (name : String) :
    Path.parse (folder name) = ⟨0, if IsBare name then [] else [folder name]⟩ := by
  rw [Path.parse_of_notMem (notMem_folder name)]
  exact congrArg (Path.mk 0) (if_congr isBare_folder_iff rfl rfl)

theorem shelf_of_relative (relative : (Path.parse ref).slashes = 0) (name : String) :
    shelf name ref = ⟨0, (if IsBare name then [] else [folder name]) ++ (Path.parse ref).names⟩ := by
  rw [shelf, parse_folder, Path.child, Path.join, if_pos relative]

theorem slashes_shelf (relative : (Path.parse ref).slashes = 0) (name : String) :
    (shelf name ref).slashes = 0 :=
  congrArg Path.slashes (shelf_of_relative relative name)

/-- Where there is a slash in the name, the folder is not `..`. -/
theorem notMem_shelf (slash : '/' ∈ name.toList) (relative : (Path.parse ref).slashes = 0)
    (level : ".." ∉ (Path.parse ref).names) : ".." ∉ (shelf name ref).names := by
  have other : ".." ≠ folder name := by
    intro same
    have hyphen := hyphen_mem_folder slash
    rw [← same] at hyphen
    exact absurd hyphen (by decide)
  rw [shelf_of_relative relative, if_neg (not_isBare_of_mem slash)]
  simpa using ⟨other, level⟩

theorem cachePath_of_absolute (absolute : (Path.parse ref).slashes ≠ 0) (cache name : String) :
    cachePath cache name ref = Path.parse ref :=
  if_neg absolute

/-- Two repositories at refs that have one place in a cache. Their names come to one folder or none, and
their refs write one path; or one has no folder, and its ref begins with the folder of the other; or the
ref of one is absolute and leads to the place of the other. -/
inductive Confused (cache : String) : String × String → String × String → Prop
  | flattened (name₁ name₂ ref₁ ref₂ : String)
      (names : List.Forall₂ Alike name₁.toList name₂.toList ∨ IsBare name₁ ∧ IsBare name₂)
      (refs : Path.parse ref₁ = Path.parse ref₂) : Confused cache (name₁, ref₁) (name₂, ref₂)
  | shifted (name₁ name₂ ref₁ ref₂ : String) (bare : IsBare name₁) (solid : ¬IsBare name₂)
      (relative₁ : (Path.parse ref₁).slashes = 0) (relative₂ : (Path.parse ref₂).slashes = 0)
      (refs : (Path.parse ref₁).names = folder name₂ :: (Path.parse ref₂).names) :
      Confused cache (name₁, ref₁) (name₂, ref₂)
  | diverted (name₁ name₂ ref₁ ref₂ : String) (absolute : (Path.parse ref₁).slashes ≠ 0)
      (there : Path.parse ref₁ = cachePath cache name₂ ref₂) :
      Confused cache (name₁, ref₁) (name₂, ref₂)
  | symm (a b : String × String) (confused : Confused cache a b) : Confused cache b a

theorem cachePath_eq_iff : cachePath cache name₁ ref₁ = cachePath cache name₂ ref₂ ↔
    Confused cache (name₁, ref₁) (name₂, ref₂) := by
  constructor
  -- An absolute ref is the whole path; two relative ones leave the paths from the cache on to compare.
  · intro same
    by_cases relative₁ : (Path.parse ref₁).slashes = 0
    swap
    · exact .diverted _ _ _ _ relative₁ ((cachePath_of_absolute relative₁ cache name₁).symm.trans same)
    by_cases relative₂ : (Path.parse ref₂).slashes = 0
    swap
    · exact .symm _ _ (.diverted _ _ _ _ relative₂
        ((cachePath_of_absolute relative₂ cache name₂).symm.trans same.symm))
    have shelves : shelf name₁ ref₁ = shelf name₂ ref₂ := by
      rw [cachePath_eq_join, cachePath_eq_join, Path.join_left_cancel] at same
      · exact same
      · exact slashes_shelf relative₁ name₁
      · exact slashes_shelf relative₂ name₂
    rw [shelf_of_relative relative₁, shelf_of_relative relative₂, Path.mk.injEq] at shelves
    obtain ⟨-, names⟩ := shelves
    by_cases bare₁ : IsBare name₁ <;> by_cases bare₂ : IsBare name₂
    · rw [if_pos bare₁, if_pos bare₂] at names
      exact .flattened _ _ _ _ (.inr ⟨bare₁, bare₂⟩) (Path.ext (relative₁.trans relative₂.symm) names)
    · rw [if_pos bare₁, if_neg bare₂] at names
      exact .shifted _ _ _ _ bare₁ bare₂ relative₁ relative₂ names
    · rw [if_neg bare₁, if_pos bare₂] at names
      exact .symm _ _ (.shifted _ _ _ _ bare₂ bare₁ relative₂ relative₁ names.symm)
    · rw [if_neg bare₁, if_neg bare₂] at names
      obtain ⟨folders, names⟩ := List.cons_eq_cons.mp names
      exact .flattened _ _ _ _ (.inl (folder_eq_iff.mp folders))
        (Path.ext (relative₁.trans relative₂.symm) names)
  · suffices own : ∀ a b, Confused cache a b → cachePath cache a.1 a.2 = cachePath cache b.1 b.2 from
      own _ _
    intro a b confused
    induction confused with
    | flattened name₁ name₂ ref₁ ref₂ names refs =>
      have folders : Path.parse (folder name₁) = Path.parse (folder name₂) := by
        rcases names with names | ⟨bare₁, bare₂⟩
        · rw [folder_eq_iff.mpr names]
        · rw [parse_folder, parse_folder, if_pos bare₁, if_pos bare₂]
      rw [cachePath_eq_join, cachePath_eq_join, shelf, shelf, Path.child, Path.child, folders, refs]
    | shifted name₁ name₂ ref₁ ref₂ bare solid relative₁ relative₂ refs =>
      rw [cachePath_eq_join, cachePath_eq_join, shelf_of_relative relative₁,
        shelf_of_relative relative₂, if_pos bare, if_neg solid, refs]
      rfl
    | diverted name₁ name₂ ref₁ ref₂ absolute there =>
      exact (cachePath_of_absolute absolute cache name₁).trans there
    | symm a b confused ih => exact ih.symm

/-- A repository of an owner without hyphens, at a relative ref that is written as paths are. -/
structure IsPlain (a : String × String) : Prop where
  owned : IsOwned a.1
  relative : (Path.parse a.2).slashes = 0
  written : (Path.parse a.2).text = a.2

/-- Of plain ones, none is confused with another. -/
theorem Confused.eq {a b : String × String} (confused : Confused cache a b) (plain : IsPlain a)
    (plain' : IsPlain b) : a = b := by
  induction confused with
  | flattened name₁ name₂ ref₁ ref₂ names refs =>
    refine Prod.ext ?_ (plain.written.symm.trans ((congrArg Path.text refs).trans plain'.written))
    rcases names with alike | ⟨bare, -⟩
    · exact (plain.owned.folder_inj plain'.owned).mp (folder_eq_iff.mpr alike)
    · exact absurd bare (not_isBare_of_mem plain.owned.slash_mem)
  | shifted name₁ name₂ ref₁ ref₂ bare => exact absurd bare (not_isBare_of_mem plain.owned.slash_mem)
  | diverted name₁ name₂ ref₁ ref₂ absolute => exact absurd plain.relative absolute
  | symm a b confused ih => exact (ih plain' plain).symm

/-- Two texts that name repositories lead to one place in the cache exactly if these are confused. Plain
ones that differ lead to places that differ, and unless their refs climb, to directories that differ. -/
theorem cachePath_distinguishes (cache defaultRef uses₁ uses₂ : String) (first : NamesRepository uses₁)
    (second : NamesRepository uses₂) :
    ∃ name₁ ref₁ name₂ ref₂, parse uses₁ defaultRef = .repository name₁ ref₁ ∧
      parse uses₂ defaultRef = .repository name₂ ref₂ ∧
      ((cachePath cache name₁ ref₁).text = (cachePath cache name₂ ref₂).text ↔
        Confused cache (name₁, ref₁) (name₂, ref₂)) ∧
      (IsPlain (name₁, ref₁) → IsPlain (name₂, ref₂) → (name₁, ref₁) ≠ (name₂, ref₂) →
        (cachePath cache name₁ ref₁).text ≠ (cachePath cache name₂ ref₂).text ∧
        ((Path.parse cache).slashes ≠ 0 → ".." ∉ (Path.parse ref₁).names →
          ".." ∉ (Path.parse ref₂).names →
          (cachePath cache name₁ ref₁).resolved ≠ (cachePath cache name₂ ref₂).resolved)) := by
  obtain ⟨name₁, ref₁, named₁⟩ := first.exists_parse defaultRef
  obtain ⟨name₂, ref₂, named₂⟩ := second.exists_parse defaultRef
  have texts : (cachePath cache name₁ ref₁).text = (cachePath cache name₂ ref₂).text ↔
      Confused cache (name₁, ref₁) (name₂, ref₂) :=
    (Path.text_inj (isWritten_cachePath ..) (isWritten_cachePath ..)).trans cachePath_eq_iff
  refine ⟨name₁, ref₁, name₂, ref₂, named₁, named₂, texts, fun plain₁ plain₂ differ => ?_⟩
  have apart : ¬Confused cache (name₁, ref₁) (name₂, ref₂) := fun confused =>
    differ (confused.eq plain₁ plain₂)
  refine ⟨mt texts.mp apart, fun rooted level₁ level₂ same => apart (cachePath_eq_iff.mp ?_)⟩
  rw [cachePath_eq_join, cachePath_eq_join] at same ⊢
  refine congrArg _ ((Path.resolved_join_left_cancel rooted ?_ ?_ ?_ ?_).mp same)
  · exact slashes_shelf plain₁.relative name₁
  · exact slashes_shelf plain₂.relative name₂
  · exact notMem_shelf plain₁.owned.slash_mem plain₁.relative level₁
  · exact notMem_shelf plain₂.owned.slash_mem plain₂.relative level₂

theorem cachePath_distinguishes_hyphened :
    NamesRepository "octo/hello-world@v1" ∧ NamesRepository "octo/hello@v1" ∧
      (cachePath "/cache" "octo/hello-world" "v1").resolved ≠
        (cachePath "/cache" "octo/hello" "v1").resolved := by
  have first : NamesRepository "octo/hello-world@v1" := by decide
  have second : NamesRepository "octo/hello@v1" := by decide
  refine ⟨first, second, ?_⟩
  obtain ⟨_, _, _, _, named₁, named₂, -, apart⟩ :=
    cachePath_distinguishes "/cache" "main" _ _ first second
  cases (show parse "octo/hello-world@v1" "main" = .repository "octo/hello-world" "v1" by
    decide).symm.trans named₁
  cases (show parse "octo/hello@v1" "main" = .repository "octo/hello" "v1" by
    decide).symm.trans named₂
  have plain₁ : IsPlain ("octo/hello-world", "v1") :=
    ⟨⟨"octo".toList, "hello-world".toList, by decide⟩, by decide, by decide⟩
  have plain₂ : IsPlain ("octo/hello", "v1") :=
    ⟨⟨"octo".toList, "hello".toList, by decide⟩, by decide, by decide⟩
  exact (apart plain₁ plain₂ (by decide)).2 (by decide) (by decide) (by decide)

/-- Two repositories of different owners are kept in one place, so that the second is not cloned there
once the first is: the files of the first are taken for it. -/
theorem cachePath_confuses :
    NamesRepository "a-b/c@v1" ∧ parse "a-b/c@v1" "main" = .repository "a-b/c" "v1" ∧
      NamesRepository "a/b-c@v1" ∧ parse "a/b-c@v1" "main" = .repository "a/b-c" "v1" ∧
      cachePath "/cache" "a-b/c" "v1" = cachePath "/cache" "a/b-c" "v1" ∧
      let site := Git.Site.scripted (cachePath "/cache" "a/b-c" "v1").text fun _ => "main"
      let kept := site.after (url "a-b/c") "v1" 1 ([], none)
      site.request (url "a/b-c") "v1" kept = ([], .ok (), kept) ∧
        site.holds? kept = some ⟨url "a-b/c", "v1"⟩ := by
  decide +kernel

end Place

section Containment

/-- A repository at a ref is kept below the cache: its path does not lead out, or leads there by itself. -/
inductive Contained (cache name ref : String) : Prop
  | relative (relative : (Path.parse ref).slashes = 0)
      (goes : Path.GoesBelow (Path.parse cache).resolved.names
        ((if IsBare name then [] else [folder name]) ++ (Path.parse ref).names)) :
      Contained cache name ref
  | absolute (absolute : (Path.parse ref).slashes ≠ 0)
      (below : (Path.parse ref).resolved.IsBelow (Path.parse cache).resolved) : Contained cache name ref

theorem isBelow_cachePath_iff (rooted : (Path.parse cache).slashes ≠ 0) :
    (cachePath cache name ref).resolved.IsBelow (Path.parse cache).resolved ↔
      Contained cache name ref := by
  by_cases relative : (Path.parse ref).slashes = 0
  · rw [cachePath_eq_join, shelf_of_relative relative, Path.isBelow_join_iff rooted rfl]
    constructor
    · exact .relative relative
    · intro contained
      cases contained with
      | relative _ goes => exact goes
      | absolute absolute => exact absurd relative absolute
  · rw [cachePath_of_absolute relative]
    constructor
    · exact .absolute relative
    · intro contained
      cases contained with
      | relative relative' => exact absurd relative' relative
      | absolute _ below => exact below

/-- Where there is a slash in the name, a relative ref without `..` does not lead out. -/
theorem contained_of_notMem (rooted : (Path.parse cache).slashes ≠ 0)
    (relative : (Path.parse ref).slashes = 0) (level : ".." ∉ (Path.parse ref).names)
    (slash : '/' ∈ name.toList) : Contained cache name ref := by
  refine (isBelow_cachePath_iff rooted).mp ?_
  rw [cachePath_eq_join]
  refine Path.isBelow_join rooted (slashes_shelf relative name) (notMem_shelf slash relative level) ?_
  rw [shelf_of_relative relative, if_neg (not_isBare_of_mem slash)]
  exact List.cons_ne_nil _ _

end Containment

end ActionRef

namespace Run

open ActionRef (NamesRepository Contained cachePath url)

/-- The action of a repository is cloned into a place, described by what is found there and run from
there. The place is below the cache exactly if the repository at its ref is kept there; a relative ref
without `..` of a name with a slash is. -/
theorem action_place (w : World) (s : Step) (named : NamesRepository s.uses)
    (rooted : (Path.parse w.settings.actionCache).slashes ≠ 0) :
    ∃ (name ref : String) (place : Path),
      ActionRef.parse s.uses w.settings.defaultRef = .repository name ref ∧
      (action w s = do
        clone w ⟨url name, ref, place.text⟩
        let a ← metadata w s.uses place
        described w s a place) ∧
      Path.parse place.text = place ∧
      (place.resolved.IsBelow (Path.parse w.settings.actionCache).resolved ↔
        Contained w.settings.actionCache name ref) ∧
      ('/' ∈ name.toList → (Path.parse ref).slashes = 0 → ".." ∉ (Path.parse ref).names →
        place.resolved.IsBelow (Path.parse w.settings.actionCache).resolved) := by
  obtain ⟨name, ref, read⟩ := named.exists_parse w.settings.defaultRef
  have below : (cachePath w.settings.actionCache name ref).resolved.IsBelow
      (Path.parse w.settings.actionCache).resolved ↔ Contained w.settings.actionCache name ref :=
    ActionRef.isBelow_cachePath_iff rooted
  refine ⟨name, ref, cachePath w.settings.actionCache name ref, read, ?_,
    Path.parse_text (ActionRef.isWritten_cachePath ..), below, fun slash relative level => ?_⟩
  · unfold action
    rw [read]
  · exact below.mpr (ActionRef.contained_of_notMem rooted relative level slash)

/-- A step that uses an action of a repository at a version. -/
def usingVersion : Step :=
  { (default : Step) with uses := "octo/hello@v1" }

theorem action_place_usingVersion :
    NamesRepository usingVersion.uses ∧ (Path.parse World.idle.settings.actionCache).slashes ≠ 0 ∧
      ∃ place : Path, (action .idle usingVersion = do
          clone .idle ⟨url "octo/hello", "v1", place.text⟩
          let a ← metadata .idle usingVersion.uses place
          described .idle usingVersion a place) ∧
        place.resolved.IsBelow (Path.parse "/tmp/actions").resolved := by
  have named : NamesRepository usingVersion.uses := by decide
  have rooted : (Path.parse World.idle.settings.actionCache).slashes ≠ 0 := by decide
  refine ⟨named, rooted, ?_⟩
  obtain ⟨_, _, place, read, same, -, -, below⟩ := action_place .idle usingVersion named rooted
  cases (show ActionRef.parse usingVersion.uses "main" = .repository "octo/hello" "v1" by
    decide).symm.trans read
  exact ⟨place, same, below (by decide) (by decide) (by decide)⟩

/-- A ref that is absolute is a place of its own, and one with enough `..` climbs out of the cache. -/
theorem action_leaves_cache :
    NamesRepository "octo/hello@/etc" ∧
      ActionRef.parse "octo/hello@/etc" "main" = .repository "octo/hello" "/etc" ∧
      (cachePath "/cache" "octo/hello" "/etc").text = "/etc" ∧
      ¬(cachePath "/cache" "octo/hello" "/etc").resolved.IsBelow (Path.parse "/cache").resolved ∧
    NamesRepository "octo/hello@../../etc" ∧
      ActionRef.parse "octo/hello@../../etc" "main" = .repository "octo/hello" "../../etc" ∧
      (cachePath "/cache" "octo/hello" "../../etc").resolved.text = "/etc" ∧
      ¬(cachePath "/cache" "octo/hello" "../../etc").resolved.IsBelow (Path.parse "/cache").resolved := by
  decide +kernel

end Run

end Drydock
