import LayeredConfig.Code.Artifact
import Mathlib.Data.List.Infix

/-!
# The header closes where it ends

The first comment terminator of an artifact is the one at the end of its header, whatever the paths
of the sources are: breaking the terminators of a path leaves none in it, and none arises where the
parts of the header meet. So all of every path lies in the comment, all of the body behind it, and
the body can be told from the artifact.
-/

namespace LayeredConfig.Code

/-! ### Texts without terminators -/

/-- What ends a comment. -/
def terminator : List Char := ['*', '/']

/-- No comment ends inside a text. -/
def Unclosed (text : List Char) : Prop := ¬ terminator <:+: text

/-- A comment ends inside one of two parts, or else across their seam. -/
theorem unclosed_append_iff {first second : List Char} :
    Unclosed (first ++ second) ↔
      Unclosed first ∧ Unclosed second ∧
        ¬ (first.getLast? = some '*' ∧ second.head? = some '/') := by
  rw [Unclosed, Unclosed, Unclosed, List.infix_append_iff, not_or, not_or]
  refine and_congr_right fun hfirst ↦ and_congr_right fun hsecond ↦ not_congr ?_
  constructor
  · rintro ⟨front, back, hsplit, hfront, hback⟩
    -- a terminator that lies on one side of the seam is inside that part
    match front, back, hsplit with
    | [], _, rfl => exact absurd hback.isInfix hsecond
    | [_], [_], rfl =>
      obtain ⟨before, rfl⟩ := hfront
      obtain ⟨behind, rfl⟩ := hback
      simp
    | [_, _], [], rfl => exact absurd hfront.isInfix hfirst
  · rintro ⟨hlast, hhead⟩
    obtain ⟨before, rfl⟩ := List.getLast?_eq_some_iff.mp hlast
    obtain ⟨behind, rfl⟩ := List.head?_eq_some_iff.mp hhead
    exact ⟨['*'], ['/'], rfl, List.suffix_append _ _, ⟨behind, rfl⟩⟩

/-- Nothing ends in an empty text. -/
theorem unclosed_nil : Unclosed [] := by simp [Unclosed, terminator]

/-- A comment ends at the first character of a text or behind it. -/
theorem unclosed_cons_iff {c : Char} {text : List Char} :
    Unclosed (c :: text) ↔ ¬ (c = '*' ∧ text.head? = some '/') ∧ Unclosed text := by
  have hsingle : Unclosed [c] := fun h ↦ absurd h.length_le (by simp [terminator])
  rw [← List.singleton_append, unclosed_append_iff, and_comm (a := Unclosed text)]
  simp [hsingle]

/-- A text without slashes ends no comment. -/
theorem unclosed_of_not_mem {text : List Char} (h : '/' ∉ text) : Unclosed text :=
  fun hinside ↦ h (hinside.subset (by decide))

/-! ### Sources -/

private theorem head?_breakTerminators (text : List Char) :
    (breakTerminators text).head? = text.head? := by
  fun_cases breakTerminators text with
  | case1 => rfl
  | case2 c => rfl
  | case3 c d rest h => rw [h.1]; rfl
  | case4 c d rest h => rfl

private theorem unclosed_breakTerminators (text : List Char) : Unclosed
    (breakTerminators text) := by
  fun_induction breakTerminators text with
  | case1 => exact unclosed_nil
  | case2 c => simp [unclosed_cons_iff, unclosed_nil]
  | case3 c d rest h ih => simp [unclosed_cons_iff, ih]
  | case4 c d rest h ih =>
    refine unclosed_cons_iff.mpr ⟨?_, ih⟩
    rwa [head?_breakTerminators, List.head?_cons, Option.some.injEq]

private theorem unclosed_sourceLine (source : String) : Unclosed (sourceLine source) := by
  have hbroken := unclosed_breakTerminators source.toList
  unfold sourceLine
  rw [unclosed_append_iff, unclosed_append_iff]
  have hindent : Unclosed " *   - ".toList := unclosed_of_not_mem (by decide)
  refine ⟨⟨hindent, hbroken, ?_⟩, unclosed_of_not_mem (by decide), ?_⟩
  · exact fun h ↦ absurd h.1 (by decide)
  · exact fun h ↦ absurd h.2 (by decide)

private theorem unclosed_flatMap_sourceLine (sources : List String) :
    Unclosed (sources.flatMap sourceLine) := by
  induction sources with
  | nil => exact unclosed_nil
  | cons source rest ih =>
    rw [List.flatMap_cons, unclosed_append_iff]
    refine ⟨unclosed_sourceLine source, ih, fun h ↦ ?_⟩
    have hlast : (sourceLine source).getLast? = some '\n' := by
      unfold sourceLine
      exact List.getLast?_concat
    rw [hlast] at h
    exact absurd h.1 (by decide)

/-! ### The header -/

/-- The header of an artifact up to the terminator at its end. -/
def remark (sources : List String) : List Char :=
  "/*\n * This file is compiled from the following ".toList ++ Nat.toDigits 10 sources.length
    ++ " source document(s):\n".toList ++ sources.flatMap sourceLine ++ [' ']

private theorem header_eq_remark (sources : List String) :
    header sources = remark sources ++ '*' :: '/' :: ['\n'] := by
  unfold header remark
  rw [List.append_assoc _ [' ']]
  rfl

private theorem unclosed_remark (sources : List String) : Unclosed (remark sources ++ ['*']) := by
  have hopening : Unclosed "/*\n * This file is compiled from the following ".toList :=
    unclosed_cons_iff.mpr ⟨by decide, unclosed_of_not_mem (by decide)⟩
  have hdigits : Unclosed (Nat.toDigits 10 sources.length) := by
    refine unclosed_of_not_mem fun hslash ↦ ?_
    exact absurd (Nat.isDigit_of_mem_toDigits (by decide) (by decide) hslash) (by decide)
  have hcounted : Unclosed " source document(s):\n".toList := unclosed_of_not_mem (by decide)
  have hlines := unclosed_flatMap_sourceLine sources
  unfold remark
  -- at each seam the fixed text has a character that is no part of a terminator
  have hfront := unclosed_append_iff.mpr ⟨hopening, hdigits, fun h ↦ absurd h.1 (by decide)⟩
  have hhead := unclosed_append_iff.mpr ⟨hfront, hcounted, fun h ↦ absurd h.2 (by decide)⟩
  have hlast : ("/*\n * This file is compiled from the following ".toList
      ++ Nat.toDigits 10 sources.length ++ " source document(s):\n".toList).getLast?
        = some '\n' := by
    rw [List.getLast?_append]
    rfl
  have hlisted := unclosed_append_iff.mpr
    ⟨hhead, hlines, fun h ↦ absurd (hlast.symm.trans h.1) (by decide)⟩
  have hspace := unclosed_append_iff.mpr
    ⟨hlisted, unclosed_of_not_mem (by decide : '/' ∉ [' ']), fun h ↦ absurd h.2 (by decide)⟩
  exact unclosed_append_iff.mpr
    ⟨hspace, unclosed_of_not_mem (by decide), fun h ↦ absurd h.2 (by decide)⟩

/-! ### Reading an artifact -/

/-- Splits a text at its first comment terminator, which belongs to neither part. -/
def splitTerminator : List Char → Option (List Char × List Char)
  | [] => none
  | c :: rest =>
    if c = '*' ∧ rest.head? = some '/' then some ([], rest.tail)
    else (splitTerminator rest).map fun (before, behind) ↦ (c :: before, behind)

private theorem splitTerminator_of_unclosed {before behind : List Char}
    (h : Unclosed (before ++ ['*'])) :
    splitTerminator (before ++ '*' :: '/' :: behind) = some (before, behind) := by
  induction before with
  | nil => simp [splitTerminator]
  | cons c rest ih =>
    rw [List.cons_append, unclosed_cons_iff] at h
    have hhead : (rest ++ '*' :: '/' :: behind).head? = (rest ++ ['*']).head? := by
      cases rest <;> rfl
    rw [List.cons_append, splitTerminator, hhead, if_neg h.1, ih h.2]
    rfl

private theorem prefix_of_splitTerminator {text front back before behind : List Char}
    (h : splitTerminator text = some (front, back))
    (htext : text = before ++ '*' :: '/' :: behind) : front <+: before := by
  induction text generalizing front before with
  | nil => cases h
  | cons c rest ih =>
    rw [splitTerminator] at h
    split at h
    · obtain ⟨rfl, -⟩ := Prod.mk.inj (Option.some.inj h)
      exact List.nil_prefix
    · next hfirst =>
      obtain ⟨⟨front, back⟩, hrest, hsplit⟩ := Option.map_eq_some_iff.mp h
      obtain ⟨rfl, rfl⟩ := Prod.mk.inj hsplit
      cases before with
      | nil =>
        obtain ⟨rfl, rfl⟩ := List.cons.inj htext
        exact absurd ⟨rfl, rfl⟩ hfirst
      | cons d before =>
        obtain ⟨rfl, hbehind⟩ := List.cons.inj htext
        exact List.cons_prefix_cons.mpr ⟨rfl, ih hrest hbehind⟩

/-- The body of an artifact: what follows the line in which its first comment ends, without the line
feed at the end. -/
def bodyOf? (artifact : String) : Option String :=
  match splitTerminator artifact.toList with
  | some (_, '\n' :: rest) => some (String.ofList rest.dropLast)
  | _ => none

/-- **The first comment of an artifact ends where its header does**, whatever its sources and its
body are. What follows is a line feed, the body and another line feed, or nothing when the body is
empty, so that the body can be told from the artifact. -/
theorem header_closes_first (sources : List String) (body : String) :
    header sources = remark sources ++ '*' :: '/' :: ['\n'] ∧
      (renderArtifact sources body).toList
        = remark sources ++ '*' :: '/' :: '\n' ::
          (if body = "" then [] else body.toList ++ ['\n']) ∧
      (∀ before behind, (renderArtifact sources body).toList = before ++ '*' :: '/' :: behind →
        remark sources <+: before) ∧
      bodyOf? (renderArtifact sources body) = some body := by
  have htext : (renderArtifact sources body).toList
      = remark sources ++ '*' :: '/' :: '\n' ::
        (if body = "" then [] else body.toList ++ ['\n']) := by
    rw [renderArtifact, String.toList_ofList, header_eq_remark, List.append_assoc]
    rfl
  have hsplit : splitTerminator (renderArtifact sources body).toList
      = some (remark sources, '\n' :: (if body = "" then [] else body.toList ++ ['\n'])) := by
    rw [htext]
    exact splitTerminator_of_unclosed (unclosed_remark sources)
  refine ⟨header_eq_remark sources, htext, fun _ _ ↦ prefix_of_splitTerminator hsplit, ?_⟩
  simp only [bodyOf?, hsplit]
  split
  · next hempty => simp [hempty]
  · simp

end LayeredConfig.Code
