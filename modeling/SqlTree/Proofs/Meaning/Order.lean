import SqlTree.Expr.Function
import SqlTree.Proofs.Meaning.Truth
import SqlTree.Proofs.Reading.SameText
import Mathlib.Order.Compare

/-!
# SqlTree — Proofs — the order of rows

A list of sort keys compares two rows: by the first key, where that does not tell them apart by the
second, and so on (`lexicographic`).  MySQL has no word for where the rows without a value go.  It
gets another key before the key itself, which sorts by a test for NULL.  A key as it is written
(`WrittenKey`) is an expression with words behind it, and from the words it is read whether it is a
test, which is the number 0 or 1, and how it sorts: rows without a value come before all others in
an ascending key, and a key without a word ascends (`WrittenKey.compare`).

* `SortKey.compare_writtenKeys`: the test and the key compare rows as the key says.
* `SortKey.compare_reverse`: the opposite key compares them the other way around.
* `Node.order_emulated`: both for lists, with the text that is written.
-/

namespace SqlTree
open Draft

universe u

/-! ### One key -/

/-- How a row without a value compares to one that has a value. -/
def NullsPlacement.side : NullsPlacement → Ordering
  | first => .lt
  | last => .gt

namespace Direction

/-- The end for rows without a value, if it is the given one in ascending order. -/
def nulls (ascending : NullsPlacement) : Direction → NullsPlacement
  | asc => ascending
  | desc => ascending.reverse

section Values
variable {V : Type u}

/-- The order of two values, with those that are missing at one end. -/
def order [LT V] [DecidableLT V] (direction : Direction) (nulls : NullsPlacement) :
    Option V → Option V → Ordering
  | some x, some y =>
    match direction with
    | asc => cmp x y
    | desc => cmp y x
  | none, some _ => nulls.side
  | some _, none => nulls.side.swap
  | none, none => .eq

/-- In the other direction and with the other end, rows come in the opposite order. -/
theorem order_reverse [Preorder V] [DecidableLT V] (direction : Direction)
    (nulls : NullsPlacement) (x? y? : Option V) :
    direction.reverse.order nulls.reverse x? y? = (direction.order nulls x? y?).swap := by
  obtain _ | x := x?
  · obtain _ | y := y?
    · rfl
    · cases nulls <;> rfl
  · obtain _ | y := y?
    · cases nulls <;> rfl
    · cases direction with
      | asc => exact (cmp_swap x y).symm
      | desc => exact (cmp_swap y x).symm

end Values

end Direction

namespace SortKey

/-- The end at which the key wants rows without a value; if it does not say, the one that they have
in its direction. -/
def placement {α : Type} (ascending : NullsPlacement) (k : SortKey α) : NullsPlacement :=
  k.nulls?.getD (k.direction.nulls ascending)

theorem placement_reverse {α : Type} (ascending : NullsPlacement) (k : SortKey α) :
    k.reverse.placement ascending = (k.placement ascending).reverse := by
  obtain ⟨expr, direction, nulls?⟩ := k
  cases nulls? with
  | some nulls => rfl
  | none => cases direction <;> cases ascending <;> rfl

variable {D : Type u} [LinearOrder D]

/-- How the key compares two rows, on an engine with the given end for rows without a value. -/
def compare (ascending : NullsPlacement) (ρ σ : Row D) (k : SortKey Node) : Ordering :=
  k.direction.order (k.placement ascending) (ρ.value k.expr) (σ.value k.expr)

theorem compare_reverse (ascending : NullsPlacement) (ρ σ : Row D) (k : SortKey Node) :
    k.reverse.compare ascending ρ σ = (k.compare ascending ρ σ).swap := by
  rw [compare, placement_reverse]
  exact Direction.order_reverse _ _ _ _

end SortKey

/-! ### Keys as they are written -/

/-- A sort key as MySQL reads it: nothing says where the rows without a value go. -/
inductive WrittenKey where
  /-- The words of a test behind an operand. -/
  | test (e : Node) (words : String)
  /-- The word behind an expression, if there is one. -/
  | values (e : Node) (word? : Option String)

namespace WrittenKey

def draft (d : Dialect) : WrittenKey → Draft
  | test e words => (e.part d).operand Strength.compared ++ fixed (" " ++ words)
  | values e none => e.draft d .item
  | values e (some word) => e.draft d .item ++ fixed (" " ++ word)

/-- The keys of a list, as MySQL is given them. -/
def ordersDraft : List WrittenKey → Draft
  | [] => nothing
  | key :: keys =>
    fixed " ORDER BY " ++ key.draft .mysql ++
      inOrder (keys.map fun key => fixed ", " ++ key.draft .mysql)

/-- Whether the test is for the opposite of NULL. -/
def negated? : String → Option Bool
  | "IS NULL" => some false
  | "IS NOT NULL" => some true
  | _ => none

/-- The direction that the word behind a key stands for. -/
def direction? : Option String → Option Direction
  | none => some .asc
  | some "ASC" => some .asc
  | some "DESC" => some .desc
  | some _ => none

theorem direction?_text (direction : Direction) :
    direction? (some direction.text) = some direction := by
  cases direction <;> rfl

/-- The number that a test comes to. -/
def outcome {V : Type u} (negated : Bool) (x? : Option V) : Nat :=
  if negated then x?.isSome.toNat else x?.isNone.toNat

variable {D : Type u} [LinearOrder D] (ρ σ : Row D)

/-- How the key compares two rows: a test is a number, what is missing comes before every value, and
a key without a direction ascends.  Other words do not compare rows. -/
def compare : WrittenKey → Option Ordering
  | test e words =>
    (negated? words).map fun negated =>
      Direction.asc.order .first (some (outcome negated (ρ.value e)))
        (some (outcome negated (σ.value e)))
  | values e word? =>
    (direction? word?).map fun direction =>
      direction.order (direction.nulls .first) (ρ.value e) (σ.value e)

/-- How a list of keys compares two rows: by the first key that tells them apart. -/
def compareAll : List WrittenKey → Option Ordering
  | [] => some .eq
  | key :: keys => (key.compare ρ σ).bind fun o => (compareAll keys).map o.then

theorem compareAll_append (xs ys : List WrittenKey) :
    compareAll ρ σ (xs ++ ys) =
      (compareAll ρ σ xs).bind fun o => (compareAll ρ σ ys).map o.then := by
  induction xs with
  | nil =>
      rw [List.nil_append, compareAll, Option.bind_some]
      cases compareAll ρ σ ys <;> rfl
  | cons key keys ih =>
      rw [List.cons_append, compareAll, compareAll, ih]
      cases key.compare ρ σ with
      | none => rfl
      | some o =>
          cases compareAll ρ σ keys with
          | none => rfl
          | some p =>
              cases compareAll ρ σ ys with
              | none => rfl
              | some q => exact congrArg some (Ordering.then_assoc o p q).symm

end WrittenKey

/-- Whether it takes the opposite test, so that its outcome is less for rows without a value. -/
def NullsPlacement.negatesTest : NullsPlacement → Bool
  | first => true
  | last => false

/-- The words of that test. -/
def NullsPlacement.testWords : NullsPlacement → String
  | first => "IS NOT NULL"
  | last => "IS NULL"

theorem NullsPlacement.negated?_testWords (nulls : NullsPlacement) :
    WrittenKey.negated? nulls.testWords = some nulls.negatesTest := by
  cases nulls <;> rfl

/-- The keys that are written for a key. -/
def SortKey.writtenKeys (k : SortKey Node) : List WrittenKey :=
  (k.nulls?.map fun nulls => .test k.expr nulls.testWords).toList ++
    [.values k.expr (some k.direction.text)]

/-- Behind the test it does not matter where rows without a value would come. -/
theorem Direction.order_behind_test {V : Type u} [LT V] [DecidableLT V] (direction : Direction)
    (nulls elsewhere : NullsPlacement) (x? y? : Option V) :
    (Direction.asc.order .first (some (WrittenKey.outcome nulls.negatesTest x?))
        (some (WrittenKey.outcome nulls.negatesTest y?))).then (direction.order elsewhere x? y?) =
      direction.order nulls x? y? := by
  cases nulls with
  | first => cases x? <;> cases y? <;> rfl
  | last => cases x? <;> cases y? <;> rfl

/-! ### Lists of keys -/

/-- The first comparison that tells rows apart. -/
def lexicographic (os : List Ordering) : Ordering := os.foldr Ordering.then .eq

theorem lexicographic_swap (os : List Ordering) :
    lexicographic (os.map Ordering.swap) = (lexicographic os).swap := by
  induction os with
  | nil => rfl
  | cons o os ih =>
      show o.swap.then (lexicographic (os.map Ordering.swap)) = (o.then (lexicographic os)).swap
      rw [ih, Ordering.swap_then]

/-- The test and the key together compare rows as the key says. -/
theorem SortKey.compare_writtenKeys {D : Type u} [LinearOrder D] (ρ σ : Row D)
    (k : SortKey Node) :
    WrittenKey.compareAll ρ σ k.writtenKeys = some (k.compare .first ρ σ) := by
  obtain ⟨expr, direction, nulls?⟩ := k
  have values : WrittenKey.compareAll ρ σ [.values expr (some direction.text)] =
      some (direction.order (direction.nulls .first) (ρ.value expr) (σ.value expr)) := by
    simp [WrittenKey.compareAll, WrittenKey.compare, WrittenKey.direction?_text]
  cases nulls? with
  | none => exact values
  | some nulls =>
      show WrittenKey.compareAll ρ σ (.test expr nulls.testWords :: [_]) = _
      rw [WrittenKey.compareAll, values, WrittenKey.compare, nulls.negated?_testWords]
      exact congrArg some (direction.order_behind_test nulls _ _ _)

/-! ### The keys of a list -/

/-- The test before a key is written with the comma behind it. -/
theorem nullsTest_sameText (e : Part) (direction : Direction) (nulls : NullsPlacement) :
    SameText .mysql (nullsTest .mysql ⟨e, direction, some nulls⟩)
      (e.operand Strength.compared ++ fixed (" " ++ nulls.testWords) ++ fixed ", ") := by
  have written : nullsTest .mysql ⟨e, direction, some nulls⟩ =
      e.operand Strength.compared ++ fixed (" " ++ nulls.testWords ++ ", ") := by
    cases nulls <;> rfl
  rw [written, append_assoc]
  exact .append (.refl _) (sameText_cut _ _)

/-- A key is written like the list of its written keys. -/
theorem SortKey.sameText (k : SortKey Node) :
    SameText .mysql ((k.map (Node.part .mysql)).draft .mysql)
      (sepBy ", " (k.writtenKeys.map (WrittenKey.draft .mysql))) := by
  obtain ⟨expr, direction, nulls?⟩ := k
  let values := expr.draft .mysql .item ++ fixed (" " ++ direction.text)
  cases nulls? with
  | none =>
      show SameText .mysql (values ++ nothing) values
      rw [append_nothing]
      exact .refl values
  | some nulls =>
      have tested := nullsTest_sameText (expr.part .mysql) direction nulls
      show SameText .mysql (nullsTest .mysql _ ++ _ ++ _ ++ nothing) (_ ++ fixed ", " ++ values)
      rw [append_nothing, append_assoc]
      exact .append tested (.refl values)

namespace Node

/-- An item of a list as a sort key: what is none ascends. -/
def sortKey : Node → SortKey Node
  | of (.sortKey k) => k
  | n => ⟨n, .asc, none⟩

/-- The keys that are written for an item. -/
def writtenKeys : Node → List WrittenKey
  | of (.sortKey k) => k.writtenKeys
  | n => [.values n none]

theorem writtenKeys_ne_nil (n : Node) : n.writtenKeys ≠ [] := by
  obtain ⟨form⟩ := n
  cases form with
  | sortKey k => exact List.append_ne_nil_of_right_ne_nil _ (List.cons_ne_nil _ _)
  | _ => exact List.cons_ne_nil _ _

theorem sameText_writtenKeys (n : Node) :
    SameText .mysql (n.draft .mysql .item)
      (sepBy ", " (n.writtenKeys.map (WrittenKey.draft .mysql))) := by
  obtain ⟨form⟩ := n
  cases form with
  | sortKey k =>
      rw [draft_item]
      exact k.sameText
  | _ => exact .refl _

theorem sortKey_reverse (n : Node) : n.reverse.sortKey = n.sortKey.reverse := by
  obtain ⟨form⟩ := n
  cases form <;> rfl

/-- The items of a list are written like the keys of all of them. -/
theorem sameText_items (items : List Node) :
    SameText .mysql (sepBy ", " (items.map fun n => n.draft .mysql .item))
      (sepBy ", " ((items.flatMap writtenKeys).map (WrittenKey.draft .mysql))) := by
  induction items with
  | nil => exact .refl _
  | cons n items ih =>
      obtain _ | ⟨m, items⟩ := items
      · rw [List.flatMap_singleton]
        exact n.sameText_writtenKeys
      · have later : ((m :: items).flatMap writtenKeys).map (WrittenKey.draft .mysql) ≠ [] := by
          simp [m.writtenKeys_ne_nil]
        have first : n.writtenKeys.map (WrittenKey.draft .mysql) ≠ [] := by
          simp [n.writtenKeys_ne_nil]
        rw [List.flatMap_cons, List.map_append, sepBy_append ", " first later]
        exact .append (.append n.sameText_writtenKeys (.refl _)) ih

theorem sameText_orders (items : List Node) :
    SameText .mysql (ordersDraft (items.map (part .mysql)))
      (WrittenKey.ordersDraft (items.flatMap writtenKeys)) := by
  cases items with
  | nil => exact .refl _
  | cons n items =>
      have some_key : (n :: items).flatMap writtenKeys ≠ [] := by simp [n.writtenKeys_ne_nil]
      obtain ⟨key, keys, h⟩ := List.exists_cons_of_ne_nil some_key
      have listed : sepBy ", " ((key :: keys).map (WrittenKey.draft .mysql)) =
          key.draft .mysql ++ inOrder (keys.map fun key => fixed ", " ++ key.draft .mysql) := by
        rw [List.map_cons, sepBy_cons, List.map_map]
        rfl
      have same := sameText_items (n :: items)
      rw [h, listed] at same
      rw [h, WrittenKey.ordersDraft, ordersDraft, List.map_map, append_assoc]
      exact .append (.refl (fixed " ORDER BY ")) same

variable {D : Type u} [LinearOrder D] (ρ σ : Row D)

theorem compare_writtenKeys (n : Node) :
    WrittenKey.compareAll ρ σ n.writtenKeys = some (n.sortKey.compare .first ρ σ) := by
  obtain ⟨form⟩ := n
  cases form with
  | sortKey k => exact k.compare_writtenKeys ρ σ
  | _ => exact congrArg some Ordering.then_eq

theorem compare_items (items : List Node) :
    WrittenKey.compareAll ρ σ (items.flatMap writtenKeys) =
      some (lexicographic (items.map fun n => n.sortKey.compare .first ρ σ)) := by
  induction items with
  | nil => rfl
  | cons n items ih =>
      rw [List.flatMap_cons, WrittenKey.compareAll_append, ih, compare_writtenKeys]
      rfl

theorem compare_reversed (ascending : NullsPlacement) (items : List Node) :
    lexicographic ((items.map reverse).map fun n => n.sortKey.compare ascending ρ σ) =
      (lexicographic (items.map fun n => n.sortKey.compare ascending ρ σ)).swap := by
  rw [← lexicographic_swap, List.map_map, List.map_map]
  refine congrArg lexicographic (List.map_congr_left fun n _ => ?_)
  show n.reverse.sortKey.compare ascending ρ σ = _
  rw [sortKey_reverse, SortKey.compare_reverse]
  rfl

/-- **Rows in the order of a list**, with any expressions, directions and ends for rows without a
value.  What MySQL is given is the text of the written keys, and by the words of these it compares
any two rows as the list says, where a key that names no end has these rows first if it ascends.
The opposite items compare the rows the other way around: by the keys that are written for MySQL,
and on any engine that knows the ends, wherever it has these rows if no end is named. -/
theorem order_emulated (items : List Node) :
    SameText .mysql (ordersDraft (items.map (part .mysql)))
      (WrittenKey.ordersDraft (items.flatMap writtenKeys)) ∧
    WrittenKey.compareAll ρ σ (items.flatMap writtenKeys) =
      some (lexicographic (items.map fun n => n.sortKey.compare .first ρ σ)) ∧
    WrittenKey.compareAll ρ σ ((items.map reverse).flatMap writtenKeys) =
      (WrittenKey.compareAll ρ σ (items.flatMap writtenKeys)).map Ordering.swap ∧
    ∀ ascending,
      lexicographic ((items.map reverse).map fun n => n.sortKey.compare ascending ρ σ) =
        (lexicographic (items.map fun n => n.sortKey.compare ascending ρ σ)).swap := by
  refine ⟨sameText_orders items, compare_items ρ σ items, ?_, ?_⟩
  · rw [compare_items, compare_items, compare_reversed]
    rfl
  · intro ascending
    exact compare_reversed ρ σ ascending items

/-- A key that descends, with the rows without a value last: they come behind 3, which comes behind
5. -/
theorem order_emulated_of_descending_last :
    let a := Node.of (.column ⟨⟨"t", none⟩, "a"⟩)
    let key := (a.sortedBy .desc).withNulls .last
    let row (a? : Option Nat) : Row Nat :=
      ⟨fun _ => 0, fun _ => a?, fun _ _ _ _ => false, fun _ => .unknown⟩
    (ordersDraft [key.part .mysql]).toSql .mysql =
        .ok " ORDER BY \x60t\x60.\x60a\x60 IS NULL, \x60t\x60.\x60a\x60 DESC" ∧
      [key].flatMap writtenKeys = [.test a "IS NULL", .values a (some "DESC")] ∧
      WrittenKey.compareAll (row none) (row (some 3)) ([key].flatMap writtenKeys) = some .gt ∧
      WrittenKey.compareAll (row (some 3)) (row (some 5)) ([key].flatMap writtenKeys) =
        some .gt := by
  intro a key row
  obtain ⟨-, missing, -, -⟩ := order_emulated (row none) (row (some 3)) [key]
  obtain ⟨-, present, -, -⟩ := order_emulated (row (some 3)) (row (some 5)) [key]
  exact ⟨rfl, rfl, missing, present⟩

end Node

end SqlTree
