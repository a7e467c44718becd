import LayeredConfig.Document.Parse
import LayeredConfig.Proofs.Yaml.SilentText

/-!
# The shortcut for blank texts

A text in which every line is blank, a comment or a document marker is the empty tree without being
parsed. The shortcut ends a line at a line feed only and trims all Unicode white space, where YAML
ends it at other characters too and has no blanks but spaces and tabs. A line is overt when the two
do not disagree about it: what is trimmed is white to YAML, a marker begins a line of YAML's, and
nothing but silent lines follows a comment.

A text of overt lines that takes the shortcut has no value but null. The condition cannot be
dropped: a carriage return ends a comment of YAML's, and the configuration behind it is lost.
-/

namespace LayeredConfig

private theorem Characters.exists_eq_trim_append (text : List Char) :
    ∃ after, text.dropWhile isBlank = trim text ++ after ∧ ∀ c ∈ after, isBlank c = true := by
  refine ⟨((text.dropWhile isBlank).reverse.takeWhile isBlank).reverse, ?_, ?_⟩
  · rw [trim, trimWhile, dropEndWhile, ← List.reverse_append, List.takeWhile_append_dropWhile,
      List.reverse_reverse]
  · intro c hc
    exact List.all_eq_true.mp List.all_takeWhile c (List.mem_reverse.mp hc)

namespace Yaml

/-- Whether a character is blank to YAML: a space, a tab or a line break. -/
def isWhite (c : Char) : Bool := isGap c || isBreak c

/-- Spaces and tabs in front of a line are of no account. -/
theorem isRemark_append {gaps : List Char} (h : ∀ c ∈ gaps, isGap c = true) (line : List Char) :
    isRemark (gaps ++ line) = isRemark line := by
  rw [isRemark, isRemark, List.dropWhile_append_of_pos h]

/-- A remark is silent. -/
theorem isSilent_of_isRemark {line : List Char} (h : isRemark line = true) :
    isSilent line = true := by
  rw [isSilent, h, Bool.true_or]

/-- A line of spaces and tabs is silent. -/
theorem isSilent_of_forall_isGap {line : List Char} (h : ∀ c ∈ line, isGap c = true) :
    isSilent line = true := by
  have hremark := isRemark_append h []
  rw [List.append_nil] at hremark
  exact isSilent_of_isRemark hremark

private theorem isSilent_marker {gaps : List Char} (h : ∀ c ∈ gaps, isGap c = true) :
    isSilent ('-' :: '-' :: '-' :: gaps) = true := by
  have hremark := isRemark_append h []
  rw [List.append_nil] at hremark
  have hhead : gaps.head?.all isGap = true := by
    cases gaps with
    | nil => rfl
    | cons c rest => exact h c List.mem_cons_self
  rw [isSilent, isStartLine, hhead, hremark]
  exact Bool.or_true _

/-- A character that ends no line belongs to the first one. -/
theorem lines_cons_of_not_isBreak {c : Char} (h : isBreak c = false) {text line : List Char}
    {more : List (List Char)} (hlines : lines text = line :: more) :
    lines (c :: text) = (c :: line) :: more := by
  rw [lines] at hlines
  rw [lines, List.splitOnP_cons_eq_if_modifyHead, if_neg (by simp [h]), hlines]
  rfl

/-- Every text has a first line. -/
theorem exists_lines_eq (text : List Char) : ∃ line more, lines text = line :: more :=
  List.exists_cons_of_ne_nil (List.splitOnP_ne_nil _ _)

/-- White space in front of a text gives lines of spaces and tabs; the last of them goes on with the
first line of the text. -/
theorem exists_lines_append {front text line : List Char} {more : List (List Char)}
    (hwhite : ∀ c ∈ front, isWhite c = true) (hlines : lines text = line :: more) :
    ∃ before gaps, lines (front ++ text) = before ++ (gaps ++ line) :: more ∧
      (∀ next ∈ before, ∀ c ∈ next, isGap c = true) ∧ ∀ c ∈ gaps, isGap c = true := by
  induction front with
  | nil => exact ⟨[], [], hlines, by simp, by simp⟩
  | cons c front ih =>
    obtain ⟨hc, hfront⟩ := List.forall_mem_cons.mp hwhite
    obtain ⟨before, gaps, hrest, hbefore, hgaps⟩ := ih hfront
    cases hb : isBreak c with
    | true =>
      refine ⟨[] :: before, gaps, ?_, List.forall_mem_cons.mpr ⟨by simp, hbefore⟩, hgaps⟩
      have hcut := lines_append_cons [] hb (front ++ text)
      rw [hrest] at hcut
      exact hcut
    | false =>
      rw [isWhite, hb, Bool.or_false] at hc
      cases before with
      | nil =>
        exact ⟨[], c :: gaps, lines_cons_of_not_isBreak hb hrest, hbefore,
          List.forall_mem_cons.mpr ⟨hc, hgaps⟩⟩
      | cons first others =>
        obtain ⟨hfirst, hothers⟩ := List.forall_mem_cons.mp hbefore
        exact ⟨(c :: first) :: others, gaps, lines_cons_of_not_isBreak hb hrest,
          List.forall_mem_cons.mpr ⟨List.forall_mem_cons.mpr ⟨hc, hfirst⟩, hothers⟩, hgaps⟩

/-- The lines of white space are spaces and tabs. -/
theorem isGap_of_mem_lines {text line : List Char} (hwhite : ∀ c ∈ text, isWhite c = true)
    (h : line ∈ lines text) : ∀ c ∈ line, isGap c = true := by
  have hnil : lines [] = [] :: [] := rfl
  obtain ⟨before, gaps, hlines, hbefore, hgaps⟩ := exists_lines_append hwhite hnil
  rw [List.append_nil] at hlines
  rw [hlines, List.append_nil, List.mem_append, List.mem_singleton] at h
  rcases h with h | rfl
  · exact hbefore line h
  · exact hgaps

/-- White space has silent lines. -/
theorem forall_isSilent_of_white {text : List Char} (hwhite : ∀ c ∈ text, isWhite c = true) :
    ∀ next ∈ lines text, isSilent next = true :=
  fun _ hnext ↦ isSilent_of_forall_isGap (isGap_of_mem_lines hwhite hnext)

private theorem forall_isSilent_of_comment {front comment : List Char}
    (hwhite : ∀ c ∈ front, isWhite c = true)
    (hinside : ∀ next ∈ (lines comment).tail, isSilent next = true) :
    ∀ next ∈ lines (front ++ '#' :: comment), isSilent next = true := by
  obtain ⟨first, more, hcomment⟩ := exists_lines_eq comment
  rw [hcomment, List.tail_cons] at hinside
  obtain ⟨before, gaps, hlines, hbefore, hgaps⟩ :=
    exists_lines_append hwhite (lines_cons_of_not_isBreak (c := '#') rfl hcomment)
  have hremark : isRemark (gaps ++ '#' :: first) = true := by
    rw [isRemark_append hgaps]
    rfl
  rw [hlines, List.forall_mem_append, List.forall_mem_cons]
  exact ⟨fun next hnext ↦ isSilent_of_forall_isGap (hbefore next hnext),
    isSilent_of_isRemark hremark, hinside⟩

private theorem forall_isSilent_of_marker {front after : List Char}
    (hwhite : ∀ c ∈ front, isWhite c = true) (hlast : front.getLast?.all isBreak = true)
    (hafter : ∀ c ∈ after, isWhite c = true) :
    ∀ next ∈ lines (front ++ '-' :: '-' :: '-' :: after), isSilent next = true := by
  obtain ⟨first, more, hlines⟩ := exists_lines_eq after
  have hgaps : ∀ next ∈ first :: more, ∀ c ∈ next, isGap c = true :=
    fun next hnext ↦ isGap_of_mem_lines hafter (hlines ▸ hnext)
  obtain ⟨hfirst, hmore⟩ := List.forall_mem_cons.mp hgaps
  have hmarker : ∀ next ∈ lines ('-' :: '-' :: '-' :: after), isSilent next = true := by
    rw [lines_cons_of_not_isBreak rfl (lines_cons_of_not_isBreak rfl
      (lines_cons_of_not_isBreak rfl hlines)), List.forall_mem_cons]
    exact ⟨isSilent_marker hfirst, fun next hnext ↦ isSilent_of_forall_isGap (hmore next hnext)⟩
  cases hend : front.getLast? with
  | none =>
    rw [List.getLast?_eq_none_iff] at hend
    rwa [hend, List.nil_append]
  | some d =>
    obtain ⟨before, rfl⟩ := List.getLast?_eq_some_iff.mp hend
    rw [hend] at hlast
    rw [List.append_assoc, List.singleton_append, lines_append_cons before hlast,
      List.forall_mem_append]
    exact ⟨forall_isSilent_of_white fun c hc ↦ hwhite c (List.mem_append_left _ hc), hmarker⟩

end Yaml

namespace Document

/-- Whether YAML takes an idle line for what it seems to be. The blanks in front are white to it; so
are those behind a marker, which stands at the beginning of one of its lines, and none of its lines
that begin inside a comment holds content. -/
def isOvert (line : List Char) : Bool :=
  let before := line.takeWhile Characters.isBlank
  before.all Yaml.isWhite &&
    match line.dropWhile Characters.isBlank with
    | [] => true
    | '#' :: comment => (Yaml.lines comment).tail.all Yaml.isSilent
    | marker => before.getLast?.all Yaml.isBreak && (marker.drop 3).all Yaml.isWhite

private theorem isIdleLine_cases {line : List Char} (h : isIdleLine line = true) :
    line.dropWhile Characters.isBlank = [] ∨
      (∃ comment, line.dropWhile Characters.isBlank = '#' :: comment) ∨
        ∃ after, line.dropWhile Characters.isBlank = '-' :: '-' :: '-' :: after := by
  obtain ⟨after, htrim, hafter⟩ := Characters.exists_eq_trim_append line
  rw [isIdleLine] at h
  split at h
  · next hnil =>
    left
    rw [hnil, List.nil_append] at htrim
    rw [List.dropWhile_eq_nil_iff]
    intro c hc
    rw [← List.takeWhile_append_dropWhile (p := Characters.isBlank) (l := line), htrim,
      List.mem_append] at hc
    rcases hc with hc | hc
    · exact List.all_eq_true.mp List.all_takeWhile c hc
    · exact hafter c hc
  · next comment hcomment =>
    rw [hcomment] at htrim
    exact .inr (.inl ⟨_, htrim⟩)
  · rw [decide_eq_true_eq] at h
    rw [h] at htrim
    exact .inr (.inr ⟨_, htrim⟩)

private theorem isSilent_of_isIdleLine {line : List Char} (hidle : isIdleLine line = true)
    (hovert : isOvert line = true) : ∀ next ∈ Yaml.lines line, Yaml.isSilent next = true := by
  rw [isOvert, Bool.and_eq_true, List.all_eq_true] at hovert
  obtain ⟨hwhite, hovert⟩ := hovert
  rw [← List.takeWhile_append_dropWhile (p := Characters.isBlank) (l := line)]
  rcases isIdleLine_cases hidle with hbody | ⟨comment, hbody⟩ | ⟨after, hbody⟩
  · rw [hbody, List.append_nil]
    exact Yaml.forall_isSilent_of_white hwhite
  · rw [hbody] at hovert ⊢
    exact Yaml.forall_isSilent_of_comment hwhite (List.all_eq_true.mp hovert)
  · rw [hbody] at hovert ⊢
    have hmark : ((line.takeWhile Characters.isBlank).getLast?.all Yaml.isBreak
        && after.all Yaml.isWhite) = true := hovert
    rw [Bool.and_eq_true, List.all_eq_true] at hmark
    exact Yaml.forall_isSilent_of_marker hwhite hmark.1 hmark.2

/-- YAML's lines of a text are those of its lines, and an empty one where it ends at a line feed.
Those of the first line come first, which is where a character in front of the text belongs. -/
theorem lines_eq_or (text : List Char) :
    (lines text = [] ∧ text = []) ∨
      ∃ line more behind, lines text = line :: more ∧
        Yaml.lines text = Yaml.lines line ++ behind ∧
          ∀ next ∈ behind, next = [] ∨ ∃ other ∈ more, next ∈ Yaml.lines other := by
  induction text with
  | nil => exact .inl ⟨rfl, rfl⟩
  | cons c rest ih =>
    right
    by_cases hc : c = '\n'
    · refine ⟨[], lines rest, Yaml.lines rest, by rw [lines, if_pos hc], ?_, ?_⟩
      · exact Yaml.lines_append_cons [] (by rw [hc]; rfl) rest
      · rcases ih with ⟨-, rfl⟩ | ⟨line, more, behind, hlines, hyaml, hbehind⟩
        · intro next hnext
          exact .inl (List.mem_singleton.mp hnext)
        · rw [hlines, hyaml, List.forall_mem_append]
          refine ⟨fun next hnext ↦ .inr ⟨line, List.mem_cons_self, hnext⟩, fun next hnext ↦ ?_⟩
          refine (hbehind next hnext).imp_right ?_
          rintro ⟨other, hother, hnext⟩
          exact ⟨other, List.mem_cons_of_mem _ hother, hnext⟩
    · rcases ih with ⟨hlines, rfl⟩ | ⟨line, more, behind, hlines, hyaml, hbehind⟩
      · exact ⟨[c], [], [], by rw [lines, if_neg hc, hlines], (List.append_nil _).symm, by simp⟩
      · refine ⟨c :: line, more, behind, by rw [lines, if_neg hc, hlines], ?_, hbehind⟩
        cases hb : Yaml.isBreak c with
        | true =>
          have hcut (text : List Char) : Yaml.lines (c :: text) = [] :: Yaml.lines text :=
            Yaml.lines_append_cons [] hb text
          rw [hcut, hcut, hyaml, List.cons_append]
        | false =>
          obtain ⟨first, others, hfirst⟩ := Yaml.exists_lines_eq line
          rw [hfirst, List.cons_append] at hyaml
          rw [Yaml.lines_cons_of_not_isBreak hb hfirst, Yaml.lines_cons_of_not_isBreak hb hyaml,
            List.cons_append]

/-- **The blank text shortcut and the parser agree** where all lines of the text are overt: whatever
value the text has, it is null, and its root gives the empty tree that the shortcut gives. -/
theorem parse_eq_rootTree_of_isBlank {text : String} (hblank : isBlank text = true)
    (hovert : ∀ line ∈ lines text.toList, isOvert line = true) {value : Yaml.Value}
    (hread : Yaml.read text = .ok value) :
    value = .null ∧ ∀ sigil origin, parse sigil origin text = rootTree sigil origin value := by
  have hsilent : ∀ next ∈ Yaml.lines text.toList, Yaml.isSilent next = true := by
    have hline {line : List Char} (hmem : line ∈ lines text.toList) :
        ∀ next ∈ Yaml.lines line, Yaml.isSilent next = true :=
      isSilent_of_isIdleLine (List.all_eq_true.mp hblank line hmem) (hovert line hmem)
    rcases lines_eq_or text.toList with ⟨-, hnil⟩ | ⟨first, more, behind, hlines, hyaml, hbehind⟩
    · rw [hnil]
      exact List.forall_mem_singleton.mpr rfl
    · rw [hyaml, List.forall_mem_append]
      refine ⟨hline (hlines ▸ List.mem_cons_self), fun next hnext ↦ ?_⟩
      rcases hbehind next hnext with rfl | ⟨line, hmem, hnext⟩
      · rfl
      · exact hline (hlines ▸ List.mem_cons_of_mem _ hmem) next hnext
  obtain rfl := Yaml.read_of_isSilent hsilent hread
  refine ⟨rfl, fun sigil origin ↦ ?_⟩
  rw [parse, if_pos hblank, rootTree]

/-- A no-break space inside a comment, an indented comment, a line separator in front of one and a
marker with blanks behind it. -/
def remarks : String := "# a\u00a0b\r\n  \n---\t\n\u2028# b\r  # c\n"

/-- The shortcut is taken, and the text is null to YAML as well. -/
theorem parse_eq_rootTree_of_isBlank_remarks :
    isBlank remarks = true ∧ Yaml.read remarks = .ok .null ∧
      parse Text.defaultSigil ⟨"app.yaml"⟩ remarks
        = rootTree Text.defaultSigil ⟨"app.yaml"⟩ .null := by
  have hblank : isBlank remarks = true := by decide +kernel
  have hovert : ∀ line ∈ lines remarks.toList, isOvert line = true := by decide +kernel
  have hreads : (Yaml.read remarks).isOk = true := by decide +kernel
  cases hread : Yaml.read remarks with
  | error fault =>
    rw [hread] at hreads
    cases hreads
  | ok value =>
    obtain ⟨rfl, hparse⟩ := parse_eq_rootTree_of_isBlank hblank hovert hread
    exact ⟨hblank, rfl, hparse _ _⟩

/-- A lone carriage return ends a comment of YAML's and no line of the shortcut's, so that the
configuration behind it is dropped. -/
theorem parse_eq_nil_behind_carriageReturn :
    isBlank "# note\rkey: 1\n" = true ∧
      parse Text.defaultSigil ⟨"app.yaml"⟩ "# note\rkey: 1\n" = .ok [] ∧
      ∃ value, Yaml.read "# note\rkey: 1\n" = .ok value ∧ value ≠ .null ∧
        rootTree Text.defaultSigil ⟨"app.yaml"⟩ value
          = .ok [(.quoted "key", .scalar (.integer 1))] := by
  refine ⟨by decide +kernel, by decide +kernel, ?_⟩
  have htree : (Yaml.read "# note\rkey: 1\n").toOption.map
      (rootTree Text.defaultSigil ⟨"app.yaml"⟩)
        = some (.ok [(.quoted "key", .scalar (.integer 1))]) := by
    decide +kernel
  cases hread : Yaml.read "# note\rkey: 1\n" with
  | error fault =>
    rw [hread] at htree
    cases htree
  | ok value =>
    have hroot : rootTree Text.defaultSigil ⟨"app.yaml"⟩ value
        = .ok [(.quoted "key", .scalar (.integer 1))] := by
      rw [hread] at htree
      exact Option.some.inj htree
    refine ⟨value, rfl, ?_, hroot⟩
    rintro rfl
    rw [rootTree] at hroot
    cases hroot

end Document

end LayeredConfig
