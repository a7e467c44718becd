import LayeredConfig.Proofs.Code.Constant

/-!
# Reading statements

A statement is a target, an equals sign between spaces, a value and a semicolon, and statements
stand on lines of their own. A target or a value may hold line feeds, semicolons and equals signs,
so the text is not cut into lines first: a statement ends where the last of its parts ends.
-/

namespace LayeredConfig.Code

open Characters (dropPrefix? dropPrefix?_eq_some_iff)

variable {α : Type}

/-- Reads a statement whose target is read by `readTarget`. -/
def readStatement (readTarget : Reader α) : Reader (α × Value) := fun text ↦ do
  let (target, afterTarget) ← readTarget text
  let code ← dropPrefix? [' ', '=', ' '] afterTarget
  let (value, afterValue) ← readValue code
  let left ← dropPrefix? [';'] afterValue
  return ((target, value), left)

/-- Reads statements to the end of the text; a reader of targets that takes nothing cannot go on. -/
def readStatements (readTarget : Reader α) (text : List Char) : Option (List (α × Value)) :=
  if text = [] then some []
  else
    match readStatement readTarget text with
    | some (statement, []) => some [statement]
    | some (statement, '\n' :: more) =>
      if more.length < text.length then (readStatements readTarget more).map (statement :: ·)
      else none
    | _ => none
termination_by text.length

/-- A target is read back when the reader stops in front of the equals sign. -/
def ReadsBack (readTarget : Reader α) (target : String) (a : α) : Prop :=
  ∀ rest, readTarget (target.toList ++ ' ' :: rest) = some (a, ' ' :: rest)

/-- The assignment of a plain value is read back, whatever follows it. -/
theorem readStatement_render {readTarget : Reader α} {target : String} {a : α} {value : Value}
    (htarget : ReadsBack readTarget target a) (hvalue : IsPlain value)
    (htip : (∃ s, value = .scalar s) ∨ value = .tree []) (rest : List Char) :
    readStatement readTarget ((Assignment.render ⟨target, plainCode value⟩).toList ++ rest)
      = some ((a, value), rest) := by
  have htext : (Assignment.render ⟨target, plainCode value⟩).toList ++ rest
      = target.toList ++ ' ' :: ('=' :: ' ' :: ((plainCode value).toList ++ ';' :: rest)) := by
    simp [Assignment.render, String.toList_append]
  have hequals : dropPrefix? [' ', '=', ' ']
      (' ' :: '=' :: ' ' :: ((plainCode value).toList ++ ';' :: rest))
        = some ((plainCode value).toList ++ ';' :: rest) := dropPrefix?_eq_some_iff.mpr rfl
  have hend : dropPrefix? [';'] (';' :: rest) = some rest := dropPrefix?_eq_some_iff.mpr rfl
  have hread := readValue_plainCode hvalue htip (c := ';') rest (by decide)
  rw [htext, readStatement, htarget]
  simp only [Option.bind_eq_bind, Option.bind_some, hequals, hread, hend]
  rfl

private theorem readStatements_last {readTarget : Reader α} {text : List Char}
    {statement : α × Value}
    (hne : text ≠ []) (h : readStatement readTarget text = some (statement, [])) :
    readStatements readTarget text = some [statement] := by
  rw [readStatements, if_neg hne, h]

private theorem readStatements_line {readTarget : Reader α} {line more : List Char}
    {statement : α × Value}
    (h : readStatement readTarget (line ++ '\n' :: more) = some (statement, '\n' :: more)) :
    readStatements readTarget (line ++ '\n' :: more)
      = (readStatements readTarget more).map (statement :: ·) := by
  have hne : line ++ '\n' :: more ≠ [] := by simp
  have hlength : more.length < (line ++ '\n' :: more).length := by
    rw [List.length_append, List.length_cons]
    omega
  rw [readStatements, if_neg hne, h]
  exact if_pos hlength

/-- Assignments on lines of their own are read back one by one. -/
theorem readStatements_renderLines {readTarget : Reader α} {list : List (α × Value)}
    {write : α × Value → Assignment}
    (h : ∀ statement ∈ list, ∀ rest,
      readStatement readTarget ((write statement).render.toList ++ rest)
        = some (statement, rest)) :
    readStatements readTarget (renderLines (list.map write)).toList = some list := by
  induction list with
  | nil =>
    rw [readStatements]
    rfl
  | cons first rest ih =>
    obtain ⟨hfirst, hrest⟩ := List.forall_mem_cons.mp h
    cases rest with
    | nil =>
      have hread := hfirst []
      rw [List.append_nil] at hread
      have htext : renderLines ([first].map write) = (write first).render :=
        String.intercalate_singleton
      rw [htext]
      apply readStatements_last _ hread
      simp [Assignment.render, String.toList_append]
    | cons second rest =>
      have htext : (renderLines ((first :: second :: rest).map write)).toList
          = (write first).render.toList
            ++ '\n' :: (renderLines ((second :: rest).map write)).toList := by
        simp [renderLines, String.intercalate_cons_cons, String.toList_append]
      rw [htext, readStatements_line (hfirst _), ih hrest, Option.map_some]

end LayeredConfig.Code
