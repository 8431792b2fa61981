import SqlTree.Proofs.Lexing.Cleaning
import SqlTree.Proofs.Reading.Around
import SqlTree.Proofs.Writing.Uniform.Node

/-!
# SqlTree — Proofs — comments stay in their blocks

A block of a select writes all its hints in one comment behind SELECT, and each of its comments at
its end.  The texts are cleaned, joined by blanks, and set off by blanks from the marks around them,
so that no mark arises where two of these meet.

* `Comment.IsBlock`: a text that opens as a comment at its beginning and nowhere else, and closes at
  its end and nowhere else.
* `Core.blocks_enclosed`: what is read of a select core is its inside between such texts, and no
  tree is written with any other comments.
-/

namespace SqlTree
open Draft

/-! ### Blocks -/

namespace Comment

/-- A comment from its opening mark to its closing one, with no other mark of either kind. -/
structure IsBlock (block : List Char) : Prop where
  enclosed : ∃ inside, block = '/' :: '*' :: inside ++ ['*', '/']
  opens_once : ∀ before after, block = before ++ '/' :: '*' :: after → before = []
  closes_once : ∀ before after, block = before ++ '*' :: '/' :: after → after = []

/-- A text without marks, between marks that are set off by blanks. -/
theorem isBlock_of_unmarked (label : List Char) {text : List Char}
    (opening : hasPair '/' '*' ('*' :: label) = false)
    (closing : hasPair '*' '/' ('/' :: '*' :: label) = false) (unmarked : hasMark text = false) :
    IsBlock ('/' :: '*' :: label ++ ' ' :: (text ++ [' ', '*', '/'])) := by
  rw [hasMark, Bool.or_eq_false_iff] at unmarked
  refine ⟨⟨label ++ ' ' :: (text ++ [' ']), by simp⟩, ?_, ?_⟩
  · intro before after split
    cases before with
    | nil => rfl
    | cons c before =>
        -- the part behind the first character has an opening mark, but neither the label nor the
        -- text has one
        have later : hasPair '/' '*' ('*' :: label ++ ' ' :: (text ++ [' ', '*', '/'])) = true := by
          have behind : '*' :: label ++ ' ' :: (text ++ [' ', '*', '/']) =
              before ++ '/' :: '*' :: after := (List.cons.inj split).2
          rw [behind]
          exact hasPair_iff.mpr ⟨before, after, by simp⟩
        rw [hasPair_append_cons (by decide) (by decide), opening,
          hasPair_append_cons (by decide) (by decide), unmarked.1] at later
        cases later
  · intro before after split
    rcases List.eq_nil_or_concat after with rfl | ⟨rest, c, rfl⟩
    · rfl
    · have earlier :
          hasPair '*' '/' ('/' :: '*' :: label ++ ' ' :: (text ++ [' ', '*'])) = true := by
        have cut : '/' :: '*' :: label ++ ' ' :: (text ++ [' ', '*']) =
            before ++ '*' :: '/' :: rest := by
          have whole : ('/' :: '*' :: label ++ ' ' :: (text ++ [' ', '*'])) ++ ['/'] =
              (before ++ '*' :: '/' :: rest) ++ [c] := by simpa using split
          exact (List.append_inj' whole rfl).1
        rw [cut]
        exact hasPair_iff.mpr ⟨before, rest, by simp⟩
      rw [hasPair_append_cons (by decide) (by decide), closing,
        hasPair_append_cons (by decide) (by decide), unmarked.2] at earlier
      cases earlier

/-- A comment as it is written. -/
def block (text : String) : String := "/* " ++ clean text ++ " */"

/-- The hints as they are written: all in one block, or in none if there are none. -/
def hintBlocks : List String → List String
  | [] => []
  | hints => ["/*+ " ++ " ".intercalate (hints.map clean) ++ " */"]

theorem isBlock_text (d : Dialect) (isHint : Bool) {text : String}
    (unmarked : hasMark text.toList = false) :
    IsBlock ((Lexeme.comment isHint text).text d).toList := by
  cases isHint with
  | true =>
      have block := isBlock_of_unmarked ['+'] (by decide) (by decide) unmarked
      simpa [Lexeme.text] using block
  | false =>
      have block := isBlock_of_unmarked [] (by decide) (by decide) unmarked
      simpa [Lexeme.text] using block

end Comment

/-! ### What is read of a core -/

namespace Draft

variable {d : Dialect}

theorem isSettled_remark (isHint : Bool) (text : String) : (remark isHint text).IsSettled :=
  ⟨rfl, rfl⟩

theorem isSettled_inOrder {as : List Draft} (h : ∀ a ∈ as, a.IsSettled) :
    (inOrder as).IsSettled := by
  induction as with
  | nil => exact isSettled_nothing
  | cons a as ih =>
      exact (h a List.mem_cons_self).append (ih fun b hb => h b (List.mem_cons_of_mem a hb))

theorem wording_remark (isHint : Bool) (text : String) :
    (remark isHint text).wording d = (Lexeme.comment isHint text).text d := by
  simp [wording, remark]

theorem wording_inOrder {as : List Draft} (h : ∀ a ∈ as, a.IsSettled) :
    (inOrder as).wording d = String.join (as.map (wording d)) := by
  induction as with
  | nil => rfl
  | cons a as ih =>
      rw [List.map_cons, String.join_cons, ← ih fun b hb => h b (List.mem_cons_of_mem a hb)]
      exact wording_append (h a List.mem_cons_self)

end Draft

/-- The texts, each behind a blank. -/
def spacedOut (texts : List String) : String := String.join (texts.map (" " ++ ·))

section
variable (d : Dialect)

theorem hintsDraft_settled (hints : List String) : (hintsDraft hints).IsSettled := by
  cases hints with
  | nil => exact isSettled_nothing
  | cons hint hints => exact (isSettled_fixed " ").append (isSettled_remark true _)

theorem wording_hintsDraft (hints : List String) :
    (hintsDraft hints).wording d = spacedOut (Comment.hintBlocks hints) := by
  cases hints with
  | nil => rfl
  | cons hint hints =>
      show (fixed " " ++ remark true _).wording d = _
      rw [wording_append (isSettled_fixed " "), wording_fixed, wording_remark]
      simp [spacedOut, Comment.hintBlocks, Lexeme.text]

/-- The comments at the end of a core. -/
def commentsDraft (comments : List String) : Draft :=
  inOrder (comments.map fun text => fixed " " ++ remark false (Comment.clean text))

theorem settled_of_mem_comments (comments : List String) :
    ∀ a ∈ comments.map fun text => fixed " " ++ remark false (Comment.clean text),
      a.IsSettled := by
  intro a ha
  obtain ⟨text, -, rfl⟩ := List.mem_map.mp ha
  exact (isSettled_fixed " ").append (isSettled_remark false _)

theorem wording_commentsDraft (comments : List String) :
    (commentsDraft comments).wording d = spacedOut (comments.map Comment.block) := by
  rw [commentsDraft, wording_inOrder (settled_of_mem_comments comments), List.map_map, spacedOut,
    List.map_map]
  refine congrArg String.join (List.map_congr_left fun text _ => ?_)
  show ((fixed " ") ++ remark false (Comment.clean text)).wording d = " " ++ Comment.block text
  rw [wording_append (isSettled_fixed " "), wording_fixed, wording_remark]
  rfl

/-- What a core is written as between its hints and its comments. -/
def Core.inside (c : Core Part) : Draft :=
  (c.quantifier?.map (SetQuantifier.draft d)).getD nothing ++
    fixed " " ++ projectionsDraft c.projections ++
    fromDraft d c.source ++
    clause " WHERE " " AND " (Part.conjuncts c.filters) ++
    clause " GROUP BY " ", " (c.groups.map Part.item) ++
    clause " HAVING " " AND " (Part.conjuncts c.havings) ++
    clause " WINDOW " ", " (c.windows.map NamedWindow.draft)

theorem Core.draft_eq_inside (c : Core Part) :
    c.draft d =
      fixed "SELECT" ++ hintsDraft c.hints ++ (c.inside d ++ commentsDraft c.comments) := by
  simp only [draft, inside, commentsDraft, append_assoc]

end

namespace Core

variable (d : Dialect) (c : Core Part)

theorem opening_settled : (fixed "SELECT" ++ hintsDraft c.hints).IsSettled :=
  (isSettled_fixed "SELECT").append (hintsDraft_settled c.hints)

theorem wording_opening : (fixed "SELECT" ++ hintsDraft c.hints).wording d =
    "SELECT" ++ spacedOut (Comment.hintBlocks c.hints) := by
  rw [wording_append (isSettled_fixed "SELECT"), wording_fixed, wording_hintsDraft]

theorem comments_settled : (commentsDraft c.comments).IsSettled :=
  isSettled_inOrder (settled_of_mem_comments c.comments)

/-- The text of a core is its inside between the blocks of hints and of comments. -/
theorem toSql_eq : (c.draft d).toSql d = ((c.inside d).toSql d).map fun sql =>
    "SELECT" ++ spacedOut (Comment.hintBlocks c.hints) ++
      (sql ++ spacedOut (c.comments.map Comment.block)) := by
  rw [draft_eq_inside, toSql_behind c.opening_settled, toSql_before c.comments_settled,
    wording_opening, wording_commentsDraft]
  cases (c.inside d).toSql d <;> rfl

theorem compile_eq : (c.draft d).compile d = ((c.inside d).compile d).map fun q =>
    { q with sql := "SELECT" ++ spacedOut (Comment.hintBlocks c.hints) ++
      (q.sql ++ spacedOut (c.comments.map Comment.block)) } := by
  rw [draft_eq_inside, compile_behind c.opening_settled, compile_before c.comments_settled,
    wording_opening, wording_commentsDraft]
  cases (c.inside d).compile d <;> rfl

/-- Without hints and comments only the inside is left. -/
theorem draft_of_silent :
    ({ c with hints := [], comments := [] } : Core Part).draft d =
      fixed "SELECT" ++ c.inside d := by
  rw [draft_eq_inside]
  show fixed "SELECT" ++ nothing ++ (c.inside d ++ nothing) = _
  rw [append_nothing, append_nothing]

end Core

namespace Comment

theorem isBlock_of_mem {hints comments : List String} :
    ∀ b ∈ hintBlocks hints ++ comments.map block, IsBlock b.toList := by
  intro b hb
  rcases List.mem_append.mp hb with hint | comment
  · cases hints with
    | nil => cases hint
    | cons first hints =>
        obtain rfl := List.mem_singleton.mp hint
        refine isBlock_text .generic true (hasMark_intercalate ?_)
        intro text ht
        obtain ⟨raw, -, rfl⟩ := List.mem_map.mp ht
        exact hasMark_clean raw
  · obtain ⟨raw, -, rfl⟩ := List.mem_map.mp comment
    exact isBlock_text .generic false (hasMark_clean raw)

/-- All comments among the lexemes are blocks. -/
def OnlyBlocks (d : Dialect) (a : Draft) : Prop :=
  ∀ isHint text, Lexeme.comment isHint text ∈ a.lexemes →
    IsBlock ((Lexeme.comment isHint text).text d).toList

variable {d : Dialect} {a b : Draft}

theorem onlyBlocks_of_plain {l : Lexeme} (plain : l.isPlain = true) :
    OnlyBlocks d ⟨[l], none⟩ := by
  intro isHint text written
  obtain rfl := List.mem_singleton.mp written
  refine isBlock_text d isHint ?_
  simpa [Lexeme.isPlain] using plain

theorem onlyBlocks_of_ne {ls : List Lexeme} (fault? : Option Error)
    (other : ∀ isHint text, Lexeme.comment isHint text ∉ ls) : OnlyBlocks d ⟨ls, fault?⟩ :=
  fun isHint text written => absurd written (other isHint text)

theorem OnlyBlocks.append (ha : OnlyBlocks d a) (hb : OnlyBlocks d b) : OnlyBlocks d (a ++ b) := by
  intro isHint text written
  obtain ⟨ls, _ | e⟩ := a
  · rcases List.mem_append.mp written with before | after
    · exact ha isHint text before
    · exact hb isHint text after
  · exact ha isHint text written

theorem congruence_onlyBlocks : Congruence fun a _ => OnlyBlocks d a where
  nothing := onlyBlocks_of_ne none (by simp)
  append := OnlyBlocks.append
  parens h := ((onlyBlocks_of_ne none (by simp)).append h).append (onlyBlocks_of_ne none (by simp))
  lexeme _ plain := onlyBlocks_of_plain plain

end Comment

/-- A tree is written with no other comments than blocks. -/
theorem Node.draft_onlyBlocks (d : Dialect) (n : Node) (place : Place) :
    Comment.OnlyBlocks d (n.draft d place) := by
  refine draft_kept Comment.congruence_onlyBlocks d n ?_ ?_ ?_ place
  · exact fun b _ => Comment.onlyBlocks_of_ne none (by simp)
  · exact fun text _ =>
      ⟨Comment.onlyBlocks_of_ne none (by simp), Comment.onlyBlocks_of_ne none (by simp)⟩
  · exact fun e _ => Comment.onlyBlocks_of_ne (some e) (by simp)

/-- **Comments cannot escape.**  Every text is cleaned to one that has no marks and needs no more
cleaning.  A core, whatever is in it and whoever reads it, is what it would be without hints and
comments, with one block for all its hints behind SELECT and one block for each of its comments at
its end, in their order; and every one of these opens at its beginning only and closes at its end
only.  So does every comment that is written for any tree. -/
theorem Core.blocks_enclosed (d : Dialect) (c : Core Part) :
    (∀ text, Comment.IsCleaned text (Comment.clean text)) ∧
    ({ c with hints := [], comments := [] } : Core Part).draft d =
      fixed "SELECT" ++ c.inside d ∧
    ((c.draft d).toSql d = ((c.inside d).toSql d).map fun sql =>
      "SELECT" ++ spacedOut (Comment.hintBlocks c.hints) ++
        (sql ++ spacedOut (c.comments.map Comment.block))) ∧
    ((c.draft d).compile d = ((c.inside d).compile d).map fun q =>
      { q with sql := "SELECT" ++ spacedOut (Comment.hintBlocks c.hints) ++
        (q.sql ++ spacedOut (c.comments.map Comment.block)) }) ∧
    (∀ block ∈ Comment.hintBlocks c.hints ++ c.comments.map Comment.block,
      Comment.IsBlock block.toList) ∧
    ∀ n : Node, ∀ place, Comment.OnlyBlocks d (n.draft d place) :=
  ⟨Comment.isCleaned_clean, c.draft_of_silent d, c.toSql_eq d, c.compile_eq d,
    Comment.isBlock_of_mem, fun n => n.draft_onlyBlocks d⟩

end SqlTree
