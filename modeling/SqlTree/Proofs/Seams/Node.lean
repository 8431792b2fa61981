import SqlTree.Proofs.Seams.Statement

/-!
# SqlTree — Proofs — prefix operators keep apart

A prefix operator is written right before its operand, without a blank.  Where the text of the
operand begins with a sign of its own, the two are read as one: `-` before `-5` begins a comment.

* `Node.toSql_apart`: where no such operand begins with a sign, no sign follows any text that the
  caller spells, and no comment begins outside of quotes.
* `Node.toSql_leading`: what is written for a prefix operator before an operand that binds tightly,
  whatever that begins with.
-/

namespace SqlTree
open Draft

variable {d : Dialect} {undashed : Prop} {s : Seam}

/-! ### All constructs -/

section
variable (g : Form Part) (h : ∀ p ∈ g.parts, p.Fits d undashed)
  (abut : ∀ p ∈ g.abutting Part.node, p.item.Fits d undashed .tight .tight)
  (raws : ∀ text ∈ g.raws, undashed → hasDashes text.toList = false)
include h abut raws

/-- A construct fits behind any seam behind which its own beginning fits. -/
theorem Form.item_fits (own : s = .tight → g.signs d = false)
    (head : ∀ p ∈ g.head? d Part.node, p.item.Fits d undashed s .tight) :
    (g.item d).Fits d undashed s .tight := by
  cases g with
  | table t => exact t.draft_fits.tighten
  | tableAlias relation name =>
      exact ((((h relation (by simp [parts, children])).operand_behind head).append
        (.word rfl)).append (.ident _)).tighten
  | column c => exact c.draft_fits.tighten
  | unqualified c => exact (Fits.ident _).tighten
  | sql text => exact .verbatim own (raws text (List.mem_singleton_self text))
  | quoted value | casted value _ => exact .slot fun hs => by simpa [signs, Form.own] using own hs
  | param b => exact .slot fun hs => by simpa [signs, Form.own] using own hs
  | bool b => exact (Fits.fixed (isSoft_boolText d b)).tighten
  | star =>
      cases s with
      | loose => exact (Fits.sign rfl).tighten
      | tight => cases own rfl
  | list items => exact Part.list_fits_behind h head
  | unary op operand =>
      refine op.draft_fits (h operand (by simp [parts, children])) own head abut ?_
      rintro text rfl
      exact raws text (List.mem_singleton_self text)
  | binary op left right =>
      refine op.draft_fits (h left (by simp [parts, children]))
        (h right (by simp [parts, children])) head ?_
      rintro text rfl
      exact raws text (List.mem_singleton_self text)
  | and items => exact conjunction_fits h head
  | matching left right escape? sensitive negated =>
      exact matchingDraft_fits (h left (by simp [parts, children]))
        (h right (by simp [parts, children])) escape? sensitive negated head
  | regexp left right sensitive negated =>
      exact regexpDraft_fits (h left (by simp [parts, children]))
        (h right (by simp [parts, children])) sensitive negated head
  | call c => exact c.draft_fits h own abut raws
  | extract expr field =>
      exact extractDraft_fits (h expr (by simp [parts, children])) field
        (raws field (List.mem_singleton_self field))
  | cast expr typeName =>
      exact castDraft_fits (h expr (by simp [parts, children])) typeName
        (raws typeName (List.mem_singleton_self typeName))
  | cases c => exact c.draft_fits h
  | join j =>
      obtain ⟨kind, relation, constraint?⟩ := j
      refine Join.draft_fits _ h ?_
      rintro rfl
      exact head relation rfl
  | sortKey k => exact k.draft_fits (h k.expr (by simp [parts, children])) (head k.expr rfl)
  | windowed expr w =>
      exact overDraft_fits (h expr (by simp [parts, children])) w
        (fun p hp => h p (by simp [parts, children, hp])) head
  | window w => exact (w.draft_fits h).tighten
  | namedWindow w => exact (w.draft_fits h).tighten
  | cte c => exact c.draft_fits (h c.relation (by simp [parts, children]))
  | values rows => exact valuesDraft_fits h
  | select select => exact (Fits.parens (select.draft_fits (s := .loose) h raws)).tighten
  | insert i => exact i.draft_fits h raws
  | update w => exact w.draft_fits h
  | delete w => exact w.draft_fits h

/-- **A construct fits** behind a loose seam, at every place. -/
theorem Form.draft_fits (place : Place) : (g.draft d place).Fits d undashed .loose .tight := by
  have item : (g.item d).Fits d undashed .loose .tight := by
    refine Form.item_fits g h abut raws nofun fun p hp => ?_
    exact (h p (Form.mem_parts_of_mem_head? hp)).item
  cases place with
  | item =>
      rw [draft_item]
      exact item
  | statement =>
      rw [draft_statement]
      cases g with
      | select select => exact select.draft_fits h raws
      | _ => exact item
  | element =>
      rw [draft_element]
      cases g with
      | unary op operand =>
          cases op with
          | grouping => exact (h operand (by simp [parts, children])).item
          | _ => exact item
      | _ => exact item
  -- only the conjunction of two has bounds
  | bounds =>
      rw [draft_bounds]
      cases g with
      | and items =>
          rcases items with _ | ⟨low, _ | ⟨high, _ | _⟩⟩
          · exact item
          · exact item
          · exact boundsDraft_fits (h low (by simp [parts, children]))
              (h high (by simp [parts, children]))
          · exact item
      | _ => exact item

end

/-! ### Trees -/

namespace Node

/-- What is written for a tree fits behind a loose seam, and behind a tight one if the tree does not
begin with a sign. -/
theorem draft_fits (n : Node) (apart : n.KeepsApart d)
    (raws : ∀ text ∈ n.raws, undashed → hasDashes text.toList = false) :
    (∀ place, (n.draft d place).Fits d undashed .loose .tight) ∧
      (n.isSigned d = false → (n.draft d .item).Fits d undashed .tight .tight) := by
  induction n using Node.induction with
  | step form ih =>
      rw [raws_of] at raws
      have raws_below {n : Node} (hn : n ∈ form.parts) :
          ∀ text ∈ n.raws, undashed → hasDashes text.toList = false := fun text ht =>
        raws text (List.mem_append_right _ (List.mem_flatMap.mpr ⟨n, hn, ht⟩))
      have below {n : Node} (hn : n ∈ form.parts) := ih n hn (apart.of_mem_parts hn) (raws_below hn)
      have fits : ∀ p ∈ (form.map (part d)).parts, p.Fits d undashed := by
        rw [Form.parts_map]
        intro p hp
        obtain ⟨n, hn, rfl⟩ := List.mem_map.mp hp
        exact ⟨(below hn).1, fun name hname => raws_below hn name (mem_raws_of_outline hname)⟩
      have abut : ∀ p ∈ (form.map (part d)).abutting Part.node,
          p.item.Fits d undashed .tight .tight := by
        rw [Form.abutting_map]
        intro p hp
        obtain ⟨n, hn, rfl⟩ := List.mem_map.mp hp
        exact (below (Form.mem_parts_of_mem_abutting hn)).2 (apart _ (self_mem_subtrees _) n hn)
      have own_raws : ∀ text ∈ (form.map (part d)).raws,
          undashed → hasDashes text.toList = false := by
        rw [Form.raws_map]
        exact fun text ht => raws text (List.mem_append_left _ ht)
      constructor
      · intro place
        rw [draft_of]
        exact Form.draft_fits _ fits abut own_raws place
      · intro unsigned
        rw [isSigned_of, Bool.or_eq_false_iff] at unsigned
        rw [draft_item]
        refine Form.item_fits _ fits abut own_raws (fun _ => ?_) fun p hp => ?_
        · rw [Form.signs_map]
          exact unsigned.1
        · rw [Form.head?_map] at hp
          obtain ⟨n, hn, rfl⟩ := Option.map_eq_some_iff.mp hp
          refine (below (Form.mem_parts_of_mem_head? hn)).2 ?_
          have first : (form.head? d fun n => n) = some n := hn
          simpa [first] using unsigned.2

/-- **Prefix operators keep apart.**  Where no part that may begin with a sign is written right
behind a text that the caller spells, no sign follows any such text, the prefix operators among
them; and if the caller spells no two dashes in a row, then there are none outside of quotes and
comments. -/
theorem toSql_apart {n : Node} {sql : String} (h : n.toSql d = .ok sql) (apart : n.KeepsApart d) :
    sql.toList = inlineText d (n.draft d .statement).lexemes ∧
      (∀ before text after, (n.draft d .statement).lexemes = before ++ .verbatim text :: after →
        beginsSign (inlineText d after) = false) ∧
      ((∀ text ∈ n.raws, hasDashes text.toList = false) →
        hasDashes (outsideText d (n.draft d .statement).lexemes) = false) := by
  obtain ⟨whole, text⟩ := toList_of_toSql h
  have path : Path d (∀ text ∈ n.raws, hasDashes text.toList = false) .loose
      (n.draft d .statement).lexemes .tight :=
    (n.draft_fits apart fun text ht undashed => undashed text ht).1 .statement whole
  refine ⟨text, ?_, path.hasDashes_outsideText⟩
  intro before spelled after split
  rw [split] at path
  exact path.apart

/-- The operand of the outer sign is in parentheses; the negative numbers stand behind blanks. -/
theorem toSql_apart_of_difference :
    ∃ n : Node, n = .binary .subtraction
        (.unary (.leading "-") (.binary .addition
          (.unary (.leading "-") (.column ⟨{ name := "t" }, "a"⟩)) (.quoted (.integer (-5)))))
        (.quoted (.integer (-1))) ∧
      n.toSql .generic = .ok "-(-\"t\".\"a\" + -5) - -1" ∧ n.KeepsApart .generic ∧
      (∀ before text after,
        (n.draft .generic .statement).lexemes = before ++ .verbatim text :: after →
          beginsSign (inlineText .generic after) = false) ∧
      hasDashes (outsideText .generic (n.draft .generic .statement).lexemes) = false := by
  obtain ⟨n, hn⟩ : ∃ n : Node, n = .binary .subtraction
      (.unary (.leading "-") (.binary .addition
        (.unary (.leading "-") (.column ⟨{ name := "t" }, "a"⟩)) (.quoted (.integer (-5)))))
      (.quoted (.integer (-1))) := ⟨_, rfl⟩
  have written : n.toSql .generic = .ok "-(-\"t\".\"a\" + -5) - -1" := by
    rw [hn]
    decide +kernel
  have apart : n.KeepsApart .generic := by
    rw [hn]
    decide +kernel
  have raws : n.raws = ["-", "-"] := by
    rw [hn]
    rfl
  obtain ⟨-, follows, undashed⟩ := toSql_apart written apart
  refine ⟨n, hn, written, apart, follows, undashed ?_⟩
  rw [raws]
  intro text ht
  obtain rfl : text = "-" := by simpa using ht
  exact hasDashes_ofList rfl

/-! ### Where the operand begins with a sign -/

end Node

/-- What is written behind a text of the caller is read behind it. -/
theorem Draft.toSql_verbatim_append {a : Draft} {sql : String} (h : a.toSql d = .ok sql)
    (text : String) : (verbatim text ++ a).toSql d = .ok (text ++ sql) := by
  rw [toSql_eq] at h ⊢
  have slots : Query.slots (verbatim text ++ a).lexemes = Query.slots a.lexemes := rfl
  have texts : (texts d (literal d) (verbatim text ++ a).lexemes).1 =
      text :: (texts d (literal d) a.lexemes).1 := rfl
  have fault : (verbatim text ++ a).fault? = a.fault? := rfl
  rw [slots, texts, fault, String.join_cons]
  split at h
  · cases h
    rfl
  · cases h

namespace Node

/-- An operand that needs no parentheses is written right behind its prefix operator. -/
theorem toSql_leading {e : Node} {sql : String} (strong : Strength.prefixed ≤ e.strength)
    (h : (e.draft d .item).toSql d = .ok sql) (text : String) :
    (unary (.leading text) e).toSql d = .ok (text ++ sql) := by
  have draft : (unary (.leading text) e).draft d .statement = verbatim text ++ e.draft d .item := by
    rw [unary, draft_of, Form.draft_statement]
    exact congrArg (verbatim text ++ ·) (if_neg (Nat.not_lt.mpr strong))
  rw [toSql, draft]
  exact toSql_verbatim_append h text

/-- The negation of minus five is a comment. -/
theorem not_toSql_apart :
    ∃ n : Node, n = .unary (.leading "-") (.quoted (.integer (-5))) ∧
      n.toSql .generic = .ok "--5" ∧ (∀ text ∈ n.raws, hasDashes text.toList = false) ∧
      hasDashes (outsideText .generic (n.draft .generic .statement).lexemes) = true := by
  have minus_five : ((quoted (.integer (-5))).draft .generic .item).toSql .generic = .ok "-5" := by
    decide +kernel
  refine ⟨_, rfl, toSql_leading (Nat.le_of_ble_eq_true rfl) minus_five "-", ?_, ?_⟩
  · intro text ht
    obtain rfl : text = "-" := List.mem_singleton.mp ht
    exact hasDashes_ofList rfl
  · decide +kernel

end Node

end SqlTree
