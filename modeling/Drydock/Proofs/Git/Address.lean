import Drydock.Git
import Drydock.Proofs.Text.Lines
import Drydock.Proofs.Text.Pieces
import Drydock.Proofs.Text.Search
import Mathlib

set_option autoImplicit false
set_option relaxedAutoImplicit false

/-!
Addresses of repositories. Main statement: of the path in an address with a scheme the last two segments
are taken, with the ending of a repository or without it; of the path behind a colon all segments are
taken, so that both kinds of addresses name the same repository exactly if the path has two segments.
-/

namespace Drydock.Git

open Text (isBlank splitAtChar trim)

/-- A part of an address: not empty, and without slashes, colons and blanks. -/
structure IsPart (part : String) : Prop where
  content : part ≠ ""
  solid : ∀ c ∈ part.toList, c ≠ '/' ∧ c ≠ ':' ∧ isBlank c = false

/-- A host, and the segments of a path of which the last one has no ending of its own. -/
structure IsLocation (host : String) (outer : List String) (owner name : String) : Prop where
  host : IsPart host
  segments : ∀ segment ∈ outer ++ [owner, name], IsPart segment
  bare : ¬".git".toList <:+ name.toList

theorem isPart_of_all {part : String} (content : part ≠ "")
    (solid : part.toList.all (fun c => c ≠ '/' ∧ c ≠ ':' ∧ isBlank c = false) = true) : IsPart part :=
  ⟨content, fun c member => by simpa using List.all_eq_true.mp solid c member⟩

/-- A path as addresses write it. -/
def pathText (segments : List String) : String :=
  "/".intercalate segments

variable {address host owner name : String} {outer segments : List String}
  {url front authority part path : List Char} {c : Char}

section Endings

theorem withoutEnding_append (url : List Char) : withoutEnding (url ++ ".git".toList) = url := by
  have found : Text.after? ".git".toList.reverse (url ++ ".git".toList).reverse = some url.reverse :=
    Text.after?_eq_some_iff.mpr List.reverse_append
  simp only [withoutEnding, found, List.reverse_reverse]

theorem withoutEnding_of_bare (bare : ¬".git".toList <:+ url) : withoutEnding url = url := by
  have absent : Text.after? ".git".toList.reverse url.reverse = none := by
    rw [Text.after?_eq_none_iff, List.reverse_prefix]
    exact bare
  simp only [withoutEnding, absent]

/-- A part at the end of a text does not reach back over a character that is not in it. -/
theorem isSuffix_of_append_cons (absent : c ∉ part) (ends : part <:+ front ++ c :: path) :
    part <:+ path := by
  obtain ⟨init, whole⟩ := ends
  rcases List.append_eq_append_iff.mp whole with ⟨between, -, rest⟩ | ⟨between, -, rest⟩
  · have member : c ∈ part := rest ▸ List.mem_append_right between List.mem_cons_self
    exact absurd member absent
  · cases between with
    | nil =>
      obtain rfl : c :: path = part := rest
      exact absurd List.mem_cons_self absent
    | cons d between =>
      obtain ⟨-, inside⟩ := List.cons.inj rest
      exact ⟨between, inside.symm⟩

theorem trim_of_solid (solid : ∀ c ∈ url, isBlank c = false) : trim url = url := by
  refine Text.trim_eq_self_iff.mpr ⟨fun c start => ?_, fun c last => ?_⟩
  · exact solid c (List.mem_of_mem_head? start)
  · exact solid c (List.mem_of_mem_getLast? last)

/-- What is read of an address that is written with the ending or without it. -/
theorem withoutEnding_trim (solid : ∀ c ∈ url, isBlank c = false) (bare : ¬".git".toList <:+ url)
    (written : address.toList = url ∨ address.toList = url ++ ".git".toList) :
    withoutEnding (trim address.toList) = url := by
  rcases written with plain | ended
  · rw [plain, trim_of_solid solid, withoutEnding_of_bare bare]
  · have whole : ∀ c ∈ url ++ ".git".toList, isBlank c = false := by
      intro c member
      rcases List.mem_append.mp member with inside | ending
      · exact solid c inside
      · have plain : ".git".toList.all (isBlank · = false) = true := by decide
        simpa using List.all_eq_true.mp plain c ending
    rw [ended, trim_of_solid whole, withoutEnding_append]

end Endings

section Branches

/-- Behind the scheme and the authority only the last two segments count. -/
theorem repositoryOf_of_pieces {scheme : List Char} {pieces : List (List Char)}
    (core : withoutEnding (trim address.toList) = url) (apart : ¬"git@".toList <+: url)
    (joined : url = ['/'].intercalate (scheme :: [] :: pieces ++ [owner.toList, name.toList]))
    (solid : ∀ piece ∈ scheme :: pieces ++ [owner.toList, name.toList], piece ≠ [] ∧ '/' ∉ piece) :
    repositoryOf address = pathText [owner, name] := by
  have split : splitAtChar '/' url = scheme :: [] :: pieces ++ [owner.toList, name.toList] := by
    rw [joined]
    refine Text.splitAtChar_intercalate (by simp) fun piece member => ?_
    by_cases empty : piece = []
    · simp [empty]
    · exact (solid piece (by simpa [empty] using member)).2
  -- Between the two slashes behind the scheme stands an empty piece, which does not count.
  have kept : (splitAtChar '/' url).filter (· ≠ []) =
      scheme :: pieces ++ [owner.toList, name.toList] := by
    have all : (scheme :: pieces ++ [owner.toList, name.toList]).filter (· ≠ []) = _ :=
      List.filter_eq_self.mpr fun piece member => by simpa using (solid piece member).1
    rw [← all, split]
    simp [List.filter_cons]
  have last : (scheme :: pieces ++ [owner.toList, name.toList]).reverse =
      name.toList :: owner.toList :: (scheme :: pieces).reverse := by simp
  simp only [repositoryOf, core, Text.after?_eq_none_iff.mpr apart, kept, last]
  rw [← String.toList_inj, String.toList_ofList, pathText, String.toList_intercalate]
  simp

/-- Behind the colon all counts. -/
theorem repositoryOf_of_colon (core : withoutEnding (trim address.toList) = url)
    (joined : url = "git@".toList ++ host.toList ++ ':' :: (pathText segments).toList)
    (free : ':' ∉ host.toList) : repositoryOf address = pathText segments := by
  have starts : Text.after? "git@".toList url =
      some (host.toList ++ ':' :: (pathText segments).toList) := by
    rw [Text.after?_eq_some_iff, joined, List.append_assoc]
  have cut : Text.cutAt? [':'] url = some ("git@".toList ++ host.toList, (pathText segments).toList) := by
    rw [joined]
    refine Text.cutAt?_append_cons fun member => ?_
    rcases List.mem_append.mp member with user | inside
    · exact absurd user (by decide)
    · exact free inside
  simp only [repositoryOf, core, starts, cut, Option.map_some, Option.getD_some, String.ofList_toList]

end Branches

section Locations

/-- An address without its ending: what stands before the host, the host, and the path behind a mark. -/
def body (front : List Char) (mark : Char) (host : String) (segments : List String) : List Char :=
  front ++ host.toList ++ mark :: (pathText segments).toList

variable {mark : Char}

theorem IsLocation.notMem_host (location : IsLocation host outer owner name) (c : Char)
    (separates : c = '/' ∨ c = ':') : c ∉ host.toList := by
  intro member
  obtain ⟨slash, colon, -⟩ := location.host.solid c member
  rcases separates with rfl | rfl
  · exact slash rfl
  · exact colon rfl

theorem IsLocation.solid_body (location : IsLocation host outer owner name)
    (plain : ∀ c ∈ mark :: front, isBlank c = false) :
    ∀ c ∈ body front mark host (outer ++ [owner, name]), isBlank c = false := by
  intro c member
  rw [body, pathText, String.toList_intercalate, List.append_assoc, List.mem_append, List.mem_append,
    List.mem_cons] at member
  rcases member with before | inHost | rfl | inPath
  · exact plain c (List.mem_cons_of_mem mark before)
  · exact (location.host.solid c inHost).2.2
  · exact plain c List.mem_cons_self
  · rcases Text.mem_of_mem_intercalate inPath with slash | ⟨segment, isSegment, inSegment⟩
    · obtain rfl : c = '/' := List.mem_singleton.mp slash
      decide
    · obtain ⟨text, among, rfl⟩ := List.mem_map.mp isSegment
      exact ((location.segments text among).solid c inSegment).2.2

theorem IsLocation.bare_body (location : IsLocation host outer owner name) (front : List Char)
    (mark : Char) : ¬".git".toList <:+ body front mark host (outer ++ [owner, name]) := by
  have path : (pathText (outer ++ [owner, name])).toList =
      (pathText (outer ++ [owner])).toList ++ '/' :: name.toList := by
    have last : outer ++ [owner, name] = (outer ++ [owner]) ++ [name] := by simp
    rw [pathText, pathText, String.toList_intercalate, String.toList_intercalate, last, List.map_append,
      List.map_singleton, Text.intercalate_concat (by simp), List.append_assoc]
    rfl
  intro ends
  -- No slash is in the ending, so that it would have to end the last segment.
  rw [body, path, ← List.cons_append, ← List.append_assoc] at ends
  exact location.bare (isSuffix_of_append_cons (by decide) ends)

theorem IsLocation.core_of_written (location : IsLocation host outer owner name)
    (plain : (mark :: front).all (isBlank · = false) = true)
    (written : address.toList = body front mark host (outer ++ [owner, name]) ∨
      address.toList = body front mark host (outer ++ [owner, name]) ++ ".git".toList) :
    withoutEnding (trim address.toList) = body front mark host (outer ++ [owner, name]) := by
  refine withoutEnding_trim (location.solid_body fun c member => ?_)
    (location.bare_body front mark) written
  simpa using List.all_eq_true.mp plain c member

theorem IsLocation.repositoryOf_of_scheme (location : IsLocation host outer owner name)
    {scheme user : List Char} (core : withoutEnding (trim address.toList) =
      body (scheme ++ "//".toList ++ user) '/' host (outer ++ [owner, name]))
    (known : scheme ∈ ["https:".toList, "ssh:".toList]) (own : '/' ∉ user) :
    repositoryOf address = pathText [owner, name] := by
  have path : (outer ++ [owner, name]).map String.toList ≠ [] := by simp
  have joined : body (scheme ++ "//".toList ++ user) '/' host (outer ++ [owner, name]) =
      ['/'].intercalate (scheme :: [] :: ((user ++ host.toList) :: outer.map String.toList) ++
        [owner.toList, name.toList]) := by
    have pieces : scheme :: [] :: ((user ++ host.toList) :: outer.map String.toList) ++
        [owner.toList, name.toList] =
          scheme :: [] :: (user ++ host.toList) :: (outer ++ [owner, name]).map String.toList := by simp
    rw [pieces, List.intercalate_cons_cons, List.intercalate_cons_cons,
      Text.intercalate_cons_of_ne_nil path, body, pathText, String.toList_intercalate]
    simp
  refine repositoryOf_of_pieces core ?_ joined ?_
  · simp only [List.mem_cons, List.not_mem_nil, or_false] at known
    rcases known with rfl | rfl <;> simp [body]
  · have solid (part : String) (isPart : IsPart part) : part.toList ≠ [] ∧ '/' ∉ part.toList := by
      refine ⟨fun empty => isPart.content (String.toList_eq_nil_iff.mp empty), fun slash => ?_⟩
      exact (isPart.solid '/' slash).1 rfl
    have place : user ++ host.toList ≠ [] ∧ '/' ∉ user ++ host.toList := by
      obtain ⟨content, free⟩ := solid host location.host
      simp [content, free, own]
    have segments : ∀ segment ∈ (outer ++ [owner, name]).map String.toList,
        segment ≠ [] ∧ '/' ∉ segment := by
      intro segment member
      obtain ⟨text, among, rfl⟩ := List.mem_map.mp member
      exact solid text (location.segments text among)
    have start : scheme ≠ [] ∧ '/' ∉ scheme := by
      simp only [List.mem_cons, List.not_mem_nil, or_false] at known
      rcases known with rfl | rfl <;> decide
    intro piece member
    have among : piece = scheme ∨ piece = user ++ host.toList ∨
        piece ∈ (outer ++ [owner, name]).map String.toList := by simpa using member
    rcases among with rfl | rfl | segment
    · exact start
    · exact place
    · exact segments piece segment

theorem pathText_eq_iff (location : IsLocation host outer owner name) :
    pathText (outer ++ [owner, name]) = pathText [owner, name] ↔ outer = [] := by
  have free : ∀ piece ∈ (outer ++ [owner, name]).map String.toList, '/' ∉ piece := by
    intro piece member
    obtain ⟨text, among, rfl⟩ := List.mem_map.mp member
    exact fun slash => ((location.segments text among).solid '/' slash).1 rfl
  constructor
  · intro same
    -- Cut at the slashes, equal texts have as many segments.
    have pieces := congrArg (fun text : String => splitAtChar '/' text.toList) same
    simp only [pathText, String.toList_intercalate] at pieces
    change splitAtChar '/' (['/'].intercalate _) = splitAtChar '/' (['/'].intercalate _) at pieces
    have last : ∀ piece ∈ [owner, name].map String.toList, '/' ∉ piece := by
      intro piece member
      exact free piece (by rw [List.map_append]; exact List.mem_append_right _ member)
    rw [Text.splitAtChar_intercalate (by simp) free, Text.splitAtChar_intercalate (by simp) last] at pieces
    have lengths := congrArg List.length pieces
    simpa using lengths
  · rintro rfl
    rfl

/-- An address with a scheme names the last two segments of its path and one with a colon the whole path,
both with the ending or without it; they agree exactly on paths of two segments. -/
theorem repositoryOf_spellings (location : IsLocation host outer owner name) :
    let path := pathText (outer ++ [owner, name])
    (∀ address ∈ ["ssh://git@" ++ host ++ "/" ++ path ++ ".git", "https://" ++ host ++ "/" ++ path,
        "https://" ++ host ++ "/" ++ path ++ ".git"],
      repositoryOf address = owner ++ "/" ++ name) ∧
    (∀ address ∈ ["git@" ++ host ++ ":" ++ path, "git@" ++ host ++ ":" ++ path ++ ".git"],
      repositoryOf address = path) ∧
    (path = owner ++ "/" ++ name ↔ outer = []) := by
  intro path
  have short : pathText [owner, name] = owner ++ "/" ++ name := by
    rw [← String.toList_inj, pathText, String.toList_intercalate]
    simp
  rw [← short]
  refine ⟨fun address written => ?_, fun address written => ?_, pathText_eq_iff location⟩
  · simp only [List.mem_cons, List.not_mem_nil, or_false] at written
    rcases written with rfl | https
    · have core : withoutEnding (trim ("ssh://git@" ++ host ++ "/" ++ path ++ ".git").toList) =
          body ("ssh:".toList ++ "//".toList ++ "git@".toList) '/' host (outer ++ [owner, name]) :=
        location.core_of_written (by decide) (.inr (by simp [body, path]))
      exact location.repositoryOf_of_scheme core (by decide) (by decide)
    · have core : withoutEnding (trim address.toList) =
          body ("https:".toList ++ "//".toList ++ []) '/' host (outer ++ [owner, name]) := by
        refine location.core_of_written (by decide) ?_
        rcases https with rfl | rfl
        · exact .inl (by simp [body, path])
        · exact .inr (by simp [body, path])
      exact location.repositoryOf_of_scheme core (by decide) (by decide)
  · have core : withoutEnding (trim address.toList) =
        body "git@".toList ':' host (outer ++ [owner, name]) := by
      refine location.core_of_written (by decide) ?_
      simp only [List.mem_cons, List.not_mem_nil, or_false] at written
      rcases written with rfl | rfl
      · exact .inl (by simp [body, path])
      · exact .inr (by simp [body, path])
    exact repositoryOf_of_colon core rfl (location.notMem_host ':' (.inr rfl))

end Locations

theorem isLocation_grouped : IsLocation "git.example" ["group"] "octo" "repo" := by
  refine ⟨isPart_of_all (by decide) (by decide), ?_, by decide⟩
  simp only [List.singleton_append, List.forall_mem_cons, List.not_mem_nil, IsEmpty.forall_iff,
    implies_true, and_true]
  exact ⟨isPart_of_all (by decide) (by decide), isPart_of_all (by decide) (by decide),
    isPart_of_all (by decide) (by decide)⟩

theorem repositoryOf_spellings_grouped :
    IsLocation "git.example" ["group"] "octo" "repo" ∧
      repositoryOf "https://git.example/group/octo/repo.git" = "octo/repo" ∧
      repositoryOf "git@git.example:group/octo/repo" = "group/octo/repo" := by
  obtain ⟨schemes, colons, -⟩ := repositoryOf_spellings isLocation_grouped
  refine ⟨isLocation_grouped, ?_, ?_⟩
  · exact schemes "https://git.example/group/octo/repo.git" (by decide)
  · exact colons "git@git.example:group/octo/repo" (by decide)

/-- Behind a colon more than the owner and the name is kept. -/
theorem repositoryOf_keeps_group :
    IsLocation "git.example" ["group"] "octo" "repo" ∧
      repositoryOf "ssh://git@git.example/group/octo/repo.git" = "octo/repo" ∧
      repositoryOf "git@git.example:group/octo/repo.git" ≠ "octo/repo" :=
  ⟨isLocation_grouped, by decide +kernel, by decide +kernel⟩

end Drydock.Git
