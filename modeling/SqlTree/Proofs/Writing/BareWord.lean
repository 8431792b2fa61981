import SqlTree.Expr.Function
import SqlTree.Proofs.Lexing.Letter
import SqlTree.Proofs.Lexing.Runs
import SqlTree.Proofs.Reading.Around
import SqlTree.Text.Blank

/-!
# SqlTree — Proofs — bare words

The implicit name of an aggregate is put into the text as it is, without quotes.  It is made of a
word for the function and of what the name of the column has by way of words: its runs of letters,
digits and underscores, in small letters and with an underscore between any two.  Nothing else of
the name of the column gets into the text.

* `bareWord_eq`: a bare word is the runs of the name, joined.
* `Node.aggregate_named`: which aggregates have an implicit name, and that every such name is an
  identifier that needs no quotes.
-/

namespace SqlTree
open Draft

/-! ### The word of a name -/

/-- The runs of letters, digits and underscores in a name, in order. -/
def words (name : String) : List (List Char) := Text.runs isWordChar name.toList

/-- Inside a word, the rest of it comes first. -/
theorem squeeze_inside (cs : List Char) : squeeze false cs =
    Text.lower (cs.takeWhile isWordChar) ++ squeeze true (cs.dropWhile isWordChar) := by
  induction cs with
  | nil => rfl
  | cons c cs ih =>
      by_cases word : isWordChar c = true
      · rw [squeeze, if_pos word, if_neg Bool.false_ne_true, List.takeWhile_cons_of_pos word,
          List.dropWhile_cons_of_pos word, ih]
        rfl
      · rw [List.takeWhile_cons_of_neg word, List.dropWhile_cons_of_neg word, squeeze, if_neg word,
          squeeze, if_neg word]
        rfl

/-- In a gap, every run that is still to come has an underscore before it. -/
theorem squeeze_gap (cs : List Char) : squeeze true cs =
    (Text.runs isWordChar cs).flatMap fun run => '_' :: Text.lower run := by
  fun_induction Text.runs isWordChar cs with
  | case1 => rfl
  | case2 c cs word ih =>
      rw [squeeze, if_pos word, if_pos rfl, squeeze_inside, ih]
      rfl
  | case3 c cs gap ih => rw [squeeze, if_neg gap, ih]

theorem intercalate_singleton_cons (between : Char) (first : List Char) (rest : List (List Char)) :
    [between].intercalate (first :: rest) = first ++ rest.flatMap (between :: ·) := by
  induction rest generalizing first with
  | nil => simp
  | cons second rest ih => simp [List.intercalate_cons_cons, ih]

/-- Without the gap at its beginning a name is its runs with underscores between them. -/
theorem squeeze_dropWhile (cs : List Char) : squeeze false (cs.dropWhile fun c => !isWordChar c) =
    ['_'].intercalate ((Text.runs isWordChar cs).map Text.lower) := by
  fun_induction Text.runs isWordChar cs with
  | case1 => rfl
  | case2 c cs word ih =>
      have stays : (c :: cs).dropWhile (fun c => !isWordChar c) = c :: cs :=
        List.dropWhile_cons_of_neg (by simp [word])
      rw [stays, squeeze_inside, List.takeWhile_cons_of_pos word, List.dropWhile_cons_of_pos word,
        squeeze_gap, List.map_cons, intercalate_singleton_cons, List.flatMap_map]
  | case3 c cs gap ih =>
      rw [List.dropWhile_cons_of_pos (by simp [gap]), ih]

theorem bareWord_eq (name : String) :
    bareWord name = String.ofList (['_'].intercalate ((words name).map Text.lower)) :=
  congrArg String.ofList (squeeze_dropWhile name.toList)

/-- There is nothing left of a name only if there is no word in it. -/
theorem bareWord_eq_empty_iff {name : String} : bareWord name = "" ↔ words name = [] := by
  rw [bareWord_eq, words]
  cases runs : Text.runs isWordChar name.toList with
  | nil => exact ⟨fun _ => rfl, fun _ => rfl⟩
  | cons first rest =>
      have first_ne : first ≠ [] :=
        (Text.mem_runs_iff.mp (runs ▸ List.mem_cons_self)).nonempty
      simp [intercalate_singleton_cons, Text.lower, first_ne]

/-! ### Bare characters -/

/-- A small ASCII letter, an ASCII digit or an underscore. -/
def isBareChar (c : Char) : Bool := c.isLower || c.isDigit || c == '_'

theorem isBareChar_toLower {c : Char} (h : isWordChar c = true) : isBareChar c.toLower = true := by
  by_cases capital : c.isUpper = true
  · simp [isBareChar, isLower_toLower capital]
  · rw [toLower_of_not_isUpper capital]
    simpa [isBareChar, isWordChar, isAlphanum_eq, isAlpha_eq, capital] using h

theorem isWordChar_of_isBareChar {c : Char} (h : isBareChar c = true) : isWordChar c = true := by
  rw [isBareChar, Bool.or_eq_true, Bool.or_eq_true] at h
  rcases h with (small | digit) | underscore
  · simp [isWordChar, isAlphanum_eq, isAlpha_eq, small]
  · simp [isWordChar, isAlphanum_eq, digit]
  · simp [isWordChar, underscore]

/-- No bare character is a capital. -/
theorem toLower_of_isBareChar {c : Char} (h : isBareChar c = true) : c.toLower = c := by
  refine toLower_of_not_isUpper fun upper => ?_
  rw [isBareChar, Bool.or_eq_true, Bool.or_eq_true, beq_iff_eq] at h
  rcases h with (small | digit) | rfl
  · exact not_isUpper_of_isLower small upper
  · exact not_isUpper_of_isDigit digit upper
  · exact absurd upper (by decide)

theorem isBareChar_of_mem_squeeze (gap : Bool) (cs : List Char) :
    ∀ c ∈ squeeze gap cs, isBareChar c = true := by
  induction cs generalizing gap with
  | nil => simp [squeeze]
  | cons c cs ih =>
      by_cases word : isWordChar c = true
      · have rest : ∀ x ∈ c.toLower :: squeeze false cs, isBareChar x = true :=
          List.forall_mem_cons.mpr ⟨isBareChar_toLower word, ih false⟩
        rw [squeeze, if_pos word]
        cases gap with
        | false => exact rest
        | true => exact List.forall_mem_cons.mpr ⟨rfl, rest⟩
      · rw [squeeze, if_neg word]
        exact ih true

/-- A word is made of bare characters only. -/
theorem isBareChar_of_mem_bareWord (name : String) :
    ∀ c ∈ (bareWord name).toList, isBareChar c = true := by
  rw [bareWord, String.toList_ofList]
  exact isBareChar_of_mem_squeeze false _

/-- What is made of bare characters only is its own word. -/
theorem bareWord_of_bare {name : String} (bare : ∀ c ∈ name.toList, isBareChar c = true) :
    bareWord name = name := by
  have word : ∀ c ∈ name.toList, isWordChar c = true :=
    fun c hc => isWordChar_of_isBareChar (bare c hc)
  have gapless : name.toList.dropWhile (fun c => !isWordChar c) = name.toList :=
    List.dropWhile_eq_self_iff.mpr fun _ => by simp [word]
  have small : Text.lower name.toList = name.toList :=
    (List.map_congr_left fun c hc => toLower_of_isBareChar (bare c hc)).trans (List.map_id _)
  rw [bareWord, gapless, squeeze_inside, List.takeWhile_eq_self_iff.mpr word,
    List.dropWhile_eq_nil_iff.mpr word, small]
  simp [squeeze]

/-! ### Implicit names -/

/-- An identifier that needs no quotes: bare characters, a letter first. -/
structure IsBareIdentifier (name : String) : Prop where
  letter : ∃ c ∈ name.toList.head?, c.isLower = true
  bare : ∀ c ∈ name.toList, isBareChar c = true

/-- For the names that are spelled out: their characters are checked one by one. -/
theorem isBareIdentifier_ofList {c : Char} {cs : List Char} (letter : c.isLower = true)
    (bare : cs.all isBareChar = true) : IsBareIdentifier (String.ofList (c :: cs)) := by
  refine ⟨⟨c, by simp, letter⟩, ?_⟩
  rw [String.toList_ofList]
  exact List.forall_mem_cons.mpr ⟨by simp [isBareChar, letter], List.all_eq_true.mp bare⟩

theorem IsBareIdentifier.append {name rest : String} (h : IsBareIdentifier name)
    (bare : ∀ c ∈ rest.toList, isBareChar c = true) : IsBareIdentifier (name ++ rest) := by
  obtain ⟨c, first, small⟩ := h.letter
  refine ⟨⟨c, ?_, small⟩, ?_⟩
  · rw [String.toList_append, List.head?_append, Option.mem_def.mp first]
    rfl
  · rw [String.toList_append]
    exact List.forall_mem_append.mpr ⟨h.bare, bare⟩

/-- The functions that make one value of many rows. -/
def FunctionKind.aggregates : List FunctionKind := [count, sum, max, min, avg]

theorem FunctionKind.isSome_shortName?_iff {kind : FunctionKind} :
    kind.shortName?.isSome = true ↔ kind ∈ aggregates := by
  cases kind <;> simp [shortName?, aggregates]

theorem FunctionKind.isBareIdentifier_shortName {kind : FunctionKind} :
    ∀ short ∈ kind.shortName?, IsBareIdentifier short := by
  intro short h
  cases kind with
  | «exists» | named _ => cases h
  | count | sum | max | min | avg =>
      obtain rfl := Option.some.inj h
      exact isBareIdentifier_ofList rfl rfl

/-- A star has no word in it. -/
theorem words_of_isStar {c : Column} (h : c.isStar = true) : words c.name = [] := by
  have star : c.name = "*" := beq_iff_eq.mp h
  exact bareWord_eq_empty_iff.mp (star ▸ by decide +kernel)

theorem implicitAlias_eq_some_iff {kind : FunctionKind} {c : Column} {a : CallAlias} :
    implicitAlias kind c = some a ↔ ∃ short ∈ kind.shortName?,
      words c.name ≠ [] ∧ a = ⟨short ++ "_" ++ bareWord c.name, true⟩ := by
  have nameless : (c.isStar || (bareWord c.name).isEmpty) = true ↔ words c.name = [] := by
    rw [Bool.or_eq_true, String.isEmpty_iff, bareWord_eq_empty_iff]
    exact or_iff_right_of_imp words_of_isStar
  rw [implicitAlias]
  cases kind.shortName? with
  | none => simp
  | some short =>
      by_cases wordless : words c.name = []
      · simp [nameless, wordless]
      · simp [nameless, wordless, eq_comm (a := a)]

namespace Node

/-- The name that an aggregate has by itself. -/
def implicitName? (kind : FunctionKind) : Node → Option CallAlias
  | of (.column c) => implicitAlias kind c
  | of _ => none

theorem aggregate_eq (kind : FunctionKind) (distinct : Bool) (expr : Node) :
    aggregate kind distinct expr =
      of (.call ⟨kind, [expr], distinct, expr.implicitName? kind⟩) := by
  obtain ⟨form⟩ := expr
  cases form <;> rfl

theorem implicitName?_eq_some_iff {kind : FunctionKind} {expr : Node} {a : CallAlias} :
    expr.implicitName? kind = some a ↔ ∃ short ∈ kind.shortName?, ∃ c, expr = of (.column c) ∧
      words c.name ≠ [] ∧ a = ⟨short ++ "_" ++ bareWord c.name, true⟩ := by
  obtain ⟨form⟩ := expr
  cases form with
  | column c =>
      rw [implicitName?, implicitAlias_eq_some_iff]
      constructor
      · rintro ⟨short, hshort, worded, rfl⟩
        exact ⟨short, hshort, c, rfl, worded, rfl⟩
      · rintro ⟨short, hshort, _, same, worded, rfl⟩
        cases same
        exact ⟨short, hshort, worded, rfl⟩
  | _ => simp [implicitName?]

theorem isSome_implicitName?_iff {kind : FunctionKind} {expr : Node} :
    (expr.implicitName? kind).isSome = true ↔
      kind ∈ FunctionKind.aggregates ∧ ∃ c, expr = of (.column c) ∧ words c.name ≠ [] := by
  rw [Option.isSome_iff_exists, ← FunctionKind.isSome_shortName?_iff]
  constructor
  · rintro ⟨a, ha⟩
    obtain ⟨short, hshort, c, rfl, worded, -⟩ := implicitName?_eq_some_iff.mp ha
    exact ⟨Option.isSome_of_mem hshort, c, rfl, worded⟩
  · rintro ⟨named, c, rfl, worded⟩
    obtain ⟨short, hshort⟩ := Option.isSome_iff_exists.mp named
    exact ⟨_, implicitName?_eq_some_iff.mpr ⟨short, hshort, c, rfl, worded, rfl⟩⟩

/-- In a SELECT list the tree is written as elsewhere, and the name behind it as it is. -/
def ShowsBare (n : Node) (name : String) : Prop := ∀ d : Dialect,
  (n.part d).projection.toSql d =
      ((n.draft d .item).toSql d).map (fun sql => sql ++ (" AS " ++ name)) ∧
    (n.part d).projection.compile d =
      ((n.draft d .item).compile d).map fun q => { q with sql := q.sql ++ (" AS " ++ name) }

/-- An implicit name is put into the text without quotes. -/
theorem showsBare_call {c : Call Node} {name : String} (h : c.alias? = some ⟨name, true⟩) :
    (of (.call c)).ShowsBare name := by
  intro d
  have settled : (fixed " AS " ++ verbatim name).IsSettled :=
    (isSettled_fixed " AS ").append (isSettled_verbatim name)
  have text : (fixed " AS " ++ verbatim name).wording d = " AS " ++ name := by
    rw [wording_append (isSettled_fixed " AS "), wording_fixed, wording_verbatim]
  have written : ((of (.call c)).part d).projection =
      (of (.call c)).draft d .item ++ (fixed " AS " ++ verbatim name) := by
    obtain ⟨kind, arguments, distinct, alias?⟩ := c
    obtain rfl : alias? = some ⟨name, true⟩ := h
    exact append_assoc _ _ _
  rw [written, toSql_before settled, compile_before settled, text]
  exact ⟨rfl, rfl⟩

/-- **Implicit names need no quotes.**  The word of a name is its runs of letters, digits and
underscores in small letters, joined by underscores, and the word of a word is the word itself.  An
aggregate has an implicit name exactly if it is one of a column with a run in its name; the name is
an identifier by itself, and so it is written. -/
theorem aggregate_named :
    (∀ name, (∀ run, run ∈ words name ↔ Text.IsRun isWordChar name.toList run) ∧
      bareWord name = String.ofList (['_'].intercalate ((words name).map Text.lower)) ∧
      (bareWord name = "" ↔ words name = []) ∧
      bareWord (bareWord name) = bareWord name) ∧
    ∀ (kind : FunctionKind) (distinct : Bool) (expr : Node), ∃ alias?,
      aggregate kind distinct expr = of (.call ⟨kind, [expr], distinct, alias?⟩) ∧
      (alias?.isSome = true ↔
        kind ∈ FunctionKind.aggregates ∧ ∃ c, expr = of (.column c) ∧ words c.name ≠ []) ∧
      ∀ a ∈ alias?, a.isImplicit = true ∧ IsBareIdentifier a.name ∧
        (∃ short ∈ kind.shortName?, ∃ c, expr = of (.column c) ∧
          a.name = short ++ "_" ++ bareWord c.name) ∧
        (aggregate kind distinct expr).ShowsBare a.name := by
  refine ⟨fun name => ⟨fun run => Text.mem_runs_iff, bareWord_eq name, bareWord_eq_empty_iff,
    bareWord_of_bare (isBareChar_of_mem_bareWord name)⟩, fun kind distinct expr => ?_⟩
  refine ⟨expr.implicitName? kind, aggregate_eq kind distinct expr, isSome_implicitName?_iff,
    fun a ha => ?_⟩
  obtain ⟨short, hshort, c, rfl, -, rfl⟩ := implicitName?_eq_some_iff.mp ha
  have stem : IsBareIdentifier (short ++ "_") :=
    (FunctionKind.isBareIdentifier_shortName short hshort).append (by simp [isBareChar])
  refine ⟨rfl, stem.append (isBareChar_of_mem_bareWord c.name), ⟨short, hshort, c, rfl, rfl⟩, ?_⟩
  rw [aggregate_eq]
  exact showsBare_call ha

/-- A name with gaps at both ends and inside, and with underscores of its own beside one of them. -/
theorem aggregate_named_of_average :
    let price : Column := ⟨⟨"t", none⟩, " 1st--Unit_ _Price! "⟩
    let average := aggregate .avg true (of (.column price))
    average =
        of (.call ⟨.avg, [of (.column price)], true, some ⟨"avg_1st_unit___price", true⟩⟩) ∧
      IsBareIdentifier "avg_1st_unit___price" ∧
      (average.part .postgresql).projection.toSql .postgresql = .ok
        "AVG(DISTINCT \"t\".\" 1st--Unit_ _Price! \") AS avg_1st_unit___price" := by
  intro price average
  obtain ⟨alias?, made, -, named⟩ := aggregate_named.2 .avg true (of (.column price))
  have name : implicitAlias .avg price = some ⟨"avg_1st_unit___price", true⟩ := by decide +kernel
  rw [aggregate_eq, implicitName?, name] at made
  cases made
  obtain ⟨-, bare, -, shown⟩ := named _ rfl
  refine ⟨congrArg (fun a => of (.call ⟨.avg, [of (.column price)], true, a⟩)) name, bare, ?_⟩
  rw [(shown .postgresql).1]
  decide +kernel

end Node

end SqlTree
