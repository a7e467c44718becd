import LayeredConfig.Yaml.Load
import Mathlib.Data.List.TakeWhile

/-!
# Texts without content

YAML ends a line at a carriage return, a next line, a line separator or a paragraph separator as
well as at a line feed. A line is silent when it holds blanks and a comment at most, or when the
start of a document is marked at its very beginning. The lexer finds nothing but start markers in a
text of silent lines, so that the only value such a text can have is null.
-/

namespace LayeredConfig.Yaml

/-- The lines of a text, cut at every character that ends one. A carriage return with its line feed
cuts twice; the line between them is empty. -/
def lines (text : List Char) : List (List Char) := text.splitOnP isBreak

/-- Whether a line holds nothing but spaces, tabs and a comment. -/
def isRemark (line : List Char) : Bool := (line.dropWhile isGap).head?.all (· = '#')

/-- Whether a line marks the start of a document and holds nothing but a comment besides. -/
def isStartLine : List Char → Bool
  | '-' :: '-' :: '-' :: rest => rest.head?.all isGap && isRemark rest
  | _ => false

/-- Whether a line holds no content. -/
def isSilent (line : List Char) : Bool := isRemark line || isStartLine line

/-! ### Lines -/

/-- A text is cut on both sides of a line break. -/
theorem lines_append_cons (line : List Char) {c : Char} (h : isBreak c = true) (rest : List Char) :
    lines (line ++ c :: rest) = lines line ++ lines rest :=
  List.splitOnP_append_cons line rest h

private theorem lines_of_forall_not {line : List Char} (h : ∀ c ∈ line, isBreak c = false) :
    lines line = [line] :=
  List.splitOnP_eq_singleton h

private theorem lines_cases (text : List Char) :
    ((∀ c ∈ text, isBreak c = false) ∧ lines text = [text]) ∨
      ∃ line d rest, text = line ++ d :: rest ∧ (∀ c ∈ line, isBreak c = false) ∧
        isBreak d = true ∧ lines text = line :: lines rest := by
  cases hfind : text.find? isBreak with
  | none =>
    have hunbroken : ∀ c ∈ text, isBreak c = false := by simpa using List.find?_eq_none.mp hfind
    exact .inl ⟨hunbroken, lines_of_forall_not hunbroken⟩
  | some d =>
    obtain ⟨hd, line, rest, htext, hbefore⟩ := List.find?_eq_some_iff_append.mp hfind
    have hunbroken : ∀ c ∈ line, isBreak c = false := by simpa using hbefore
    refine .inr ⟨line, d, rest, htext, hunbroken, hd, ?_⟩
    rw [htext, lines_append_cons line hd, lines_of_forall_not hunbroken, List.singleton_append]

private theorem not_isBreak_of_isGap {c : Char} (h : isGap c = true) : isBreak c = false := by
  rw [isGap, Bool.or_eq_true, decide_eq_true_eq, decide_eq_true_eq] at h
  rcases h with rfl | rfl
  · rfl
  · rfl

private theorem isRemark_cons_of_isGap {c : Char} (h : isGap c = true) (line : List Char) :
    isRemark (c :: line) = isRemark line := by
  rw [isRemark, isRemark, List.dropWhile_cons_of_pos h]

/-- What begins with another character is a comment, or more than that. -/
theorem isRemark_cons_of_not_isGap {c : Char} (h : isGap c = false) (line : List Char) :
    isRemark (c :: line) = decide (c = '#') := by
  rw [isRemark, List.dropWhile_cons_of_neg (by simp [h])]
  rfl

/-! ### Cursors -/

namespace Cursor

private theorem rest_skipWhile (c : Cursor) (p : Char → Bool) :
    (c.skipWhile p).rest = c.rest.dropWhile p := by
  have hdrop : (c.rest.takeWhile p ++ c.rest.dropWhile p).drop (c.rest.takeWhile p).length
      = c.rest.dropWhile p := List.drop_left
  rwa [List.takeWhile_append_dropWhile] at hdrop

/-- What is left of the line is a remark or, at its beginning, a start line; all lines behind it are
silent. -/
structure SilentFrom (c : Cursor) (line behind : List Char) : Prop where
  rest : c.rest = line ++ behind
  unbroken : ∀ d ∈ line, isBreak d = false
  silent : isRemark line = true ∨ c.column = 0 ∧ isStartLine line = true
  behind : ∀ d more, behind = d :: more →
    isBreak d = true ∧ ∀ next ∈ lines more, isSilent next = true

/-- Only silent lines follow. -/
def IsSilent (c : Cursor) : Prop := ∃ line behind, c.SilentFrom line behind

/-- At the beginning of a line only silent lines follow when what is left has no other lines. -/
theorem isSilent_of_lines {c : Cursor} (hcolumn : c.column = 0)
    (h : ∀ line ∈ lines c.rest, isSilent line = true) : c.IsSilent := by
  have hstart {line : List Char} (hline : isSilent line = true) :
      isRemark line = true ∨ c.column = 0 ∧ isStartLine line = true := by
    rw [isSilent, Bool.or_eq_true] at hline
    exact hline.imp_right fun hs ↦ ⟨hcolumn, hs⟩
  rcases lines_cases c.rest with ⟨hunbroken, hlines⟩ | ⟨line, d, rest, htext, hunbroken, hd, hlines⟩
  · rw [hlines, List.forall_mem_singleton] at h
    exact ⟨c.rest, [], (List.append_nil _).symm, hunbroken, hstart h, nofun⟩
  · rw [hlines, List.forall_mem_cons] at h
    refine ⟨line, d :: rest, htext, hunbroken, hstart h.1, ?_⟩
    rintro d' more ⟨⟩
    exact ⟨hd, h.2⟩

private theorem isSilent_readBreak {c : Cursor} {d : Char} {more : List Char}
    (hrest : c.rest = d :: more)
    (hd : isBreak d = true) (h : ∀ next ∈ lines more, isSilent next = true) :
    c.readBreak.2.IsSilent ∧ c.readBreak.2.rest.length < c.rest.length := by
  rw [readBreak]
  split
  · next rest hreturn =>
    obtain ⟨rfl, rfl⟩ := List.cons.inj (hrest.symm.trans hreturn)
    have hfeed : lines ('\n' :: rest) = [] :: lines rest := lines_append_cons [] rfl rest
    rw [hfeed, List.forall_mem_cons] at h
    refine ⟨isSilent_of_lines rfl h.2, ?_⟩
    rw [hrest]
    simp only [List.length_cons]
    omega
  · next other rest _ hother =>
    obtain ⟨rfl, rfl⟩ := List.cons.inj (hrest.symm.trans hother)
    rw [if_pos hd]
    refine ⟨isSilent_of_lines rfl h, ?_⟩
    rw [hrest]
    simp
  · next hnil =>
    rw [hrest] at hnil
    cases hnil

private theorem dropWhile_of_isRemark {p : Char → Bool} (hgap : ∀ d, p d = true → isGap d = true)
    (htab : ∀ d, isGap d = true → p d = false → d = '\t') {line behind : List Char}
    (hunbroken : ∀ d ∈ line, isBreak d = false) (hremark : isRemark line = true)
    (hbehind : ∀ d more, behind = d :: more → isBreak d = true) :
    (line ++ behind).dropWhile p = behind ∨
      ((line ++ behind).dropWhile p).head? = some '\t' ∨
        ∃ comment, (line ++ behind).dropWhile p = '#' :: comment ++ behind ∧
          ∀ d ∈ comment, isBreak d = false := by
  induction line with
  | nil =>
    left
    cases behind with
    | nil => rfl
    | cons d more =>
      have hp : ¬ p d = true := by
        intro hp
        have hd := hbehind d more rfl
        rw [not_isBreak_of_isGap (hgap d hp)] at hd
        cases hd
      exact List.dropWhile_cons_of_neg hp
  | cons d line ih =>
    obtain ⟨-, hline⟩ := List.forall_mem_cons.mp hunbroken
    rw [List.cons_append]
    by_cases hp : p d = true
    · rw [isRemark_cons_of_isGap (hgap d hp)] at hremark
      rw [List.dropWhile_cons_of_pos hp]
      exact ih hline hremark
    · rw [List.dropWhile_cons_of_neg hp]
      cases hg : isGap d with
      | true =>
        rw [htab d hg (Bool.eq_false_iff.mpr hp)]
        exact .inr (.inl rfl)
      | false =>
        rw [isRemark_cons_of_not_isGap hg, decide_eq_true_eq] at hremark
        rw [hremark]
        exact .inr (.inr ⟨line, rfl, hline⟩)

private theorem rest_skipComment_of_isRemark {c : Cursor} {line behind : List Char}
    {p : Char → Bool}
    (hgap : ∀ d, p d = true → isGap d = true)
    (htab : ∀ d, isGap d = true → p d = false → d = '\t')
    (hrest : c.rest = line ++ behind) (hunbroken : ∀ d ∈ line, isBreak d = false)
    (hremark : isRemark line = true) (hbehind : ∀ d more, behind = d :: more → isBreak d = true) :
    (c.skipWhile p).skipComment.rest = behind ∨
      (c.skipWhile p).skipComment.rest.head? = some '\t' := by
  have hdrop := dropWhile_of_isRemark hgap htab hunbroken hremark hbehind
  rw [← hrest, ← rest_skipWhile] at hdrop
  rw [skipComment, isAt]
  rcases hdrop with hdrop | hdrop | ⟨comment, hdrop, hcomment⟩
  · have hhead : (c.skipWhile p).rest.head? ≠ some '#' := by
      rw [hdrop]
      intro hhead
      obtain ⟨more, rfl⟩ := List.head?_eq_some_iff.mp hhead
      exact absurd (hbehind _ _ rfl) (by decide)
    rw [if_neg (by simpa using hhead)]
    exact .inl hdrop
  · rw [if_neg (by simp [hdrop])]
    exact .inr hdrop
  · rw [if_pos (by simp [hdrop])]
    have hinside : ∀ d ∈ '#' :: comment, (!isBreak d) = true := by
      rw [List.forall_mem_cons]
      exact ⟨rfl, fun d hd ↦ by simp [hcomment d hd]⟩
    left
    rw [rest_skipWhile, hdrop, List.dropWhile_append_of_pos hinside]
    cases hb : behind with
    | nil => rfl
    | cons d more => exact List.dropWhile_cons_of_neg (by simp [hbehind d more hb])

/-- The start of a document is marked here, and only silent lines follow. -/
structure IsStart (c : Cursor) : Prop where
  marker : c.isMarker '-' = true
  rest : ∃ more, c.rest = '-' :: more
  silent : (c.advance 3).IsSilent

private theorem SilentFrom.isStart {c : Cursor} {line behind : List Char}
    (h : c.SilentFrom line behind)
    (hcolumn : c.column = 0) (hstart : isStartLine line = true) : c.IsStart := by
  rw [isStartLine.eq_def] at hstart
  split at hstart
  · next more =>
    rw [Bool.and_eq_true] at hstart
    have hunbroken : ∀ d ∈ more, isBreak d = false := fun d hd ↦ h.unbroken d (by simp [hd])
    have hblank : c.isBlankOrEnd 3 = true := by
      rw [isBlankOrEnd, peek?, h.rest]
      cases more with
      | nil =>
        cases hb : behind with
        | nil => rfl
        | cons d rest => simp [(h.behind d rest hb).1]
      | cons d rest =>
        have hd : isGap d = true := hstart.1
        simp [hd]
    refine ⟨?_, ⟨_, h.rest⟩, more, behind, ?_, hunbroken, .inl hstart.2, h.behind⟩
    · rw [isMarker, hcolumn, h.rest, hblank]
      rfl
    · rw [advance, h.rest]
      rfl
  · cases hstart

private theorem SilentFrom.skipByteOrderMark {c : Cursor} {line behind : List Char}
    (h : c.SilentFrom line behind) : c.skipByteOrderMark = c := by
  rw [Cursor.skipByteOrderMark, if_neg]
  rw [Bool.and_eq_true, isAt, decide_eq_true_eq, h.rest]
  rintro ⟨-, hhead⟩
  cases line with
  | nil =>
    cases hb : behind with
    | nil => simp [hb] at hhead
    | cons d more =>
      obtain rfl : d = '\ufeff' := by simpa [hb] using hhead
      exact absurd (h.behind _ _ hb).1 (by decide)
  | cons d line =>
    obtain rfl : d = '\ufeff' := by simpa using hhead
    rcases h.silent with hremark | ⟨-, hstart⟩
    · rw [isRemark_cons_of_not_isGap (by decide)] at hremark
      exact absurd hremark (by decide)
    · simp [isStartLine] at hstart

/-- Nothing is left, or a tab or a start marker comes next. -/
def IsStop (c : Cursor) : Prop := c.rest = [] ∨ c.rest.head? = some '\t' ∨ c.IsStart

private theorem IsStop.not_isBreak {c : Cursor} (h : c.IsStop) :
    c.rest.head?.any isBreak = false := by
  rcases h with hrest | hrest | ⟨-, ⟨more, hrest⟩, -⟩
  all_goals
    rw [hrest]
    rfl

private theorem skipComment_of_isSilent {c : Cursor} {p : Char → Bool}
    (hgap : ∀ d, p d = true → isGap d = true)
    (htab : ∀ d, isGap d = true → p d = false → d = '\t') (h : c.IsSilent) :
    (c.skipByteOrderMark.skipWhile p).skipComment.IsStop ∨
      ∃ d more, (c.skipByteOrderMark.skipWhile p).skipComment.rest = d :: more ∧
        isBreak d = true ∧ (∀ next ∈ lines more, isSilent next = true) ∧
          more.length < c.rest.length := by
  obtain ⟨line, behind, hs⟩ := h
  rw [hs.skipByteOrderMark]
  rcases hs.silent with hremark | ⟨hcolumn, hstart⟩
  · rcases rest_skipComment_of_isRemark hgap htab hs.rest hs.unbroken hremark
      fun d more hb ↦ (hs.behind d more hb).1 with hrest | hrest
    · cases behind with
      | nil => exact .inl (.inl hrest)
      | cons d more =>
        obtain ⟨hd, hmore⟩ := hs.behind d more rfl
        refine .inr ⟨d, more, hrest, hd, hmore, ?_⟩
        rw [hs.rest, List.length_append, List.length_cons]
        omega
    · exact .inl (.inr (.inl hrest))
  · -- nothing is skipped in front of a marker
    have hmark := hs.isStart hcolumn hstart
    obtain ⟨more, hrest⟩ := hmark.rest
    have hp : p '-' = false := by
      rw [Bool.eq_false_iff]
      intro hp
      exact absurd (hgap _ hp) (by decide)
    have hskip : c.skipWhile p = c := by
      rw [skipWhile, hrest, List.takeWhile_cons_of_neg (by simp [hp])]
      rfl
    rw [hskip, skipComment, if_neg (by simp [isAt, hrest])]
    exact .inl (.inr (.inr hmark))

end Cursor

/-! ### The lexer -/

namespace Lexer

private theorem skipToToken_of_isSilent {fuel : Nat} {s : Lexer}
    (hfuel : s.cursor.rest.length ≤ fuel)
    (h : s.cursor.IsSilent) :
    ∃ c keyAllowed, s.skipToToken fuel = { s with cursor := c, keyAllowed } ∧ c.IsStop := by
  induction fuel generalizing s with
  | zero => exact ⟨_, _, rfl, .inl (List.eq_nil_of_length_eq_zero (by omega))⟩
  | succ fuel ih =>
    have hgap (tabs : Bool) (d : Char) (hd : (d == ' ' || (tabs && d == '\t')) = true) :
        isGap d = true := by
      simp only [Bool.or_eq_true, Bool.and_eq_true, beq_iff_eq] at hd
      rcases hd with rfl | ⟨-, rfl⟩
      · rfl
      · rfl
    have htab (tabs : Bool) (d : Char) (hd : isGap d = true)
        (hp : (d == ' ' || (tabs && d == '\t')) = false) : d = '\t' := by
      simp only [isGap, Bool.or_eq_true, decide_eq_true_eq] at hd
      rcases hd with rfl | rfl
      · simp at hp
      · rfl
    have hskipped := Cursor.skipComment_of_isSilent (hgap (s.inFlow || !s.keyAllowed))
      (htab (s.inFlow || !s.keyAllowed)) h
    rw [skipToToken]
    rcases hskipped with hstop | ⟨d, more, hrest, hd, hmore, hlength⟩
    · rw [if_neg (by simp [hstop.not_isBreak])]
      exact ⟨_, _, rfl, hstop⟩
    · rw [if_pos (by simp [hrest, hd])]
      obtain ⟨hsilent, hless⟩ := Cursor.isSilent_readBreak hrest hd hmore
      rw [hrest, List.length_cons] at hless
      exact ih (by dsimp only; omega) hsilent

/-- No block is open, no key is pending, and all tokens so far are start markers. -/
structure IsQuiet (s : Lexer) : Prop where
  indent : s.indent = -1
  indents : s.indents = []
  keys : s.keys = [none]
  tokens : ∀ token ∈ s.tokens, token = .documentStart

namespace IsQuiet

variable {s : Lexer}

private theorem dropStaleKeys (h : s.IsQuiet) : s.dropStaleKeys = .ok s := by
  rcases s with ⟨cursor, indent, indents, keys, keyAllowed, tokens, count⟩
  obtain rfl : keys = [none] := h.keys
  rfl

/-- There is no block to be closed. -/
theorem unroll (h : s.IsQuiet) (column : Int) : s.unroll column = s := by
  rcases s with ⟨cursor, indent, indents, keys, keyAllowed, tokens, count⟩
  obtain rfl : keys = [none] := h.keys
  obtain rfl : indents = [] := h.indents
  rfl

/-- There is no pending key to be given up. -/
theorem dropKey (h : s.IsQuiet) : s.dropKey = .ok s := by
  rw [Lexer.dropKey, h.keys]

private theorem readToken (h : s.IsQuiet) (hstart : s.cursor.IsStart) :
    s.readToken '-' =
      .ok ({ s with cursor := s.cursor.advance 3, keyAllowed := false }.emit .documentStart) := by
  rw [Lexer.readToken, if_neg (by simp), if_pos hstart.marker, atLineStart, h.unroll, h.dropKey]
  rfl

end IsQuiet

private theorem readToken_tab {s : Lexer} {more : List Char}
    (hrest : s.cursor.rest = '\t' :: more) :
    s.readToken '\t' = .error .unexpectedCharacter := by
  simp [readToken, Cursor.isMarker, hrest, startsPlain, isGap]

private theorem run_of_isSilent {fuel : Nat} {s : Lexer} {tokens : List Token} (hquiet : s.IsQuiet)
    (hsilent : s.cursor.IsSilent) (h : s.run fuel = .ok tokens) :
    ∀ token ∈ tokens, token = .documentStart := by
  induction fuel generalizing s with
  | zero => cases h
  | succ fuel ih =>
    obtain ⟨c, keyAllowed, hskip, hstop⟩ := skipToToken_of_isSilent le_rfl hsilent
    have hskipped : IsQuiet { s with cursor := c, keyAllowed } :=
      ⟨hquiet.indent, hquiet.indents, hquiet.keys, hquiet.tokens⟩
    rw [run, hskip] at h
    simp only [hskipped.dropStaleKeys, hskipped.unroll] at h
    rcases hstop with hrest | hrest | hstart
    · simp only [hrest, hskipped.dropKey] at h
      obtain rfl := Except.ok.inj h
      simpa using hquiet.tokens
    · obtain ⟨more, hrest⟩ := List.head?_eq_some_iff.mp hrest
      have htab : Lexer.readToken { s with cursor := c, keyAllowed } '\t'
          = .error .unexpectedCharacter := readToken_tab hrest
      simp only [hrest, htab] at h
      cases h
    · obtain ⟨more, hrest⟩ := hstart.rest
      simp only [hrest, hskipped.readToken hstart] at h
      have hnext : IsQuiet ({ s with cursor := c.advance 3, keyAllowed := false }.emit
          .documentStart) :=
        ⟨hquiet.indent, hquiet.indents, hquiet.keys,
          List.forall_mem_cons.mpr ⟨rfl, hquiet.tokens⟩⟩
      exact ih hnext hstart.silent h

end Lexer

private theorem tokenize_of_isSilent {text : List Char} {tokens : List Token}
    (hsilent : ∀ line ∈ lines text, isSilent line = true) (h : tokenize text = .ok tokens) :
    ∀ token ∈ tokens, token = .documentStart := by
  rw [tokenize] at h
  split at h
  · exact Lexer.run_of_isSilent ⟨rfl, rfl, rfl, by simp [Lexer.start]⟩
      (Cursor.isSilent_of_lines rfl hsilent) h
  · cases h

/-! ### Documents -/

private theorem document_of_start (fuel : Nat) :
    (Compose.document (fuel + 1)).run' ⟨[.documentStart], []⟩ = .ok (some .missing) := rfl

private theorem document_of_starts (fuel : Nat) (rest : List Token) :
    (Compose.document (fuel + 1)).run' ⟨.documentStart :: .documentStart :: rest, []⟩
      = .error .severalDocuments := rfl

private theorem ofTokens_of_starts {tokens : List Token} {root : Option Node}
    (hstarts : ∀ token ∈ tokens, token = .documentStart) (h : Node.ofTokens tokens = .ok root) :
    root = none ∨ root = some .missing := by
  rw [Node.ofTokens] at h
  cases tokens with
  | nil =>
    left
    exact (Except.ok.inj h).symm
  | cons first rest =>
    obtain ⟨rfl, hrest⟩ := List.forall_mem_cons.mp hstarts
    cases rest with
    | nil =>
      right
      rw [document_of_start] at h
      exact (Except.ok.inj h).symm
    | cons second rest =>
      obtain rfl := hrest second List.mem_cons_self
      rw [document_of_starts] at h
      cases h

private theorem value_missing : Node.missing.value = .ok .null := by
  have hsame : Node.missing.value.toOption.any (Value.sameKey .null) = true := by decide +kernel
  cases hvalue : Node.missing.value with
  | error fault =>
    rw [hvalue] at hsame
    cases hsame
  | ok value =>
    rw [hvalue] at hsame
    cases value with
    | null => rfl
    | _ => cases hsame

private theorem load_of_isSilent {text : String} {value : Value}
    (hsilent : ∀ line ∈ lines text.toList, isSilent line = true) (h : load text = .ok value) :
    value = .null := by
  rw [load] at h
  split at h
  · cases h
  · next tokens htokens =>
    split at h
    · cases h
    · exact (Except.ok.inj h).symm
    · next root hroot =>
      rcases ofTokens_of_starts (tokenize_of_isSilent hsilent htokens) hroot with hnone | hmissing
      · cases hnone
      · rw [Option.some.inj hmissing, value_missing] at h
        exact (Except.ok.inj h).symm

/-- A text of silent lines has no value but null. -/
theorem read_of_isSilent {text : String} {value : Value}
    (hsilent : ∀ line ∈ lines text.toList, isSilent line = true) (h : read text = .ok value) :
    value = .null := by
  rw [read] at h
  split at h
  · cases h
  · next loaded hload =>
    rw [load_of_isSilent hsilent hload] at h
    exact (Except.ok.inj h).symm

end LayeredConfig.Yaml
