import Mathlib.Data.List.Forall2

/-!
Sequences of items that delimit themselves. A reader takes one item off the
front of its input and is repeated until the input is used up, or until there is
one it cannot read; which items an input holds is a relation on which proofs go
by induction. Appended inputs hold the items of both.
-/

namespace ProtobufLkm.ItemSequence

set_option autoImplicit false

universe u v

variable {Symbol : Type u} {Item : Type v}

def readAll (read : List Symbol → Option (Item × List Symbol)) :
    Nat → List Symbol → Option (List Item)
  | _, [] => some []
  | 0, _ :: _ => none
  | fuel + 1, input =>
      (read input).bind fun (item, rest) => (readAll read fuel rest).map (item :: ·)

/-- The items in front of the first one that cannot be read, and the input from
there on. -/
def readFront (read : List Symbol → Option (Item × List Symbol)) :
    Nat → List Symbol → List Item × List Symbol
  | _, [] => ([], [])
  | 0, input => ([], input)
  | fuel + 1, input =>
      match read input with
      | none => ([], input)
      | some (item, rest) => ((readFront read fuel rest).map (item :: ·) id)

inductive Holds (read : List Symbol → Option (Item × List Symbol)) :
    List Symbol → List Item → Prop where
  | nil : Holds read [] []
  | cons {input rest : List Symbol} {item : Item} {items : List Item} :
      input ≠ [] → read input = some (item, rest) → Holds read rest items →
      Holds read input (item :: items)

variable {read : List Symbol → Option (Item × List Symbol)}

theorem read_all_cons {input : List Symbol} (nonempty : input ≠ []) (fuel : Nat) :
    readAll read (fuel + 1) input =
      (read input).bind fun (item, rest) => (readAll read fuel rest).map (item :: ·) := by
  cases input with
  | nil => exact absurd rfl nonempty
  | cons symbol others =>
      rw [readAll]
      simp

theorem holds_of_read_all {fuel : Nat} {input : List Symbol} {items : List Item}
    (found : readAll read fuel input = some items) : Holds read input items := by
  induction fuel generalizing input items with
  | zero =>
      cases input with
      | nil =>
          cases found
          exact .nil
      | cons symbol others => cases found
  | succ fuel ih =>
      cases input with
      | nil =>
          cases found
          exact .nil
      | cons symbol others =>
          rw [read_all_cons (List.cons_ne_nil _ _), Option.bind_eq_some_iff] at found
          obtain ⟨⟨item, rest⟩, first, found⟩ := found
          obtain ⟨later, tail, rfl⟩ := Option.map_eq_some_iff.mp found
          exact .cons (List.cons_ne_nil _ _) first (ih tail)

theorem read_front_cons {input : List Symbol} (nonempty : input ≠ []) (fuel : Nat) :
    readFront read (fuel + 1) input =
      match read input with
      | none => ([], input)
      | some (item, rest) => (readFront read fuel rest).map (item :: ·) id := by
  cases input with
  | nil => exact absurd rfl nonempty
  | cons symbol others =>
      rw [readFront]
      simp

/-- Nothing is left exactly when all of the input is read. -/
theorem read_all_eq_some_iff (fuel : Nat) (input : List Symbol) (items : List Item) :
    readAll read fuel input = some items ↔ readFront read fuel input = (items, []) := by
  induction fuel generalizing input items with
  | zero =>
      cases input with
      | nil => simp [readAll, readFront, eq_comm]
      | cons symbol others => simp [readAll, readFront]
  | succ fuel ih =>
      cases input with
      | nil => simp [readAll, readFront, eq_comm]
      | cons symbol others =>
          rw [read_all_cons (List.cons_ne_nil _ _), read_front_cons (List.cons_ne_nil _ _)]
          cases read (symbol :: others) with
          | none => simp
          | some pair =>
              obtain ⟨item, rest⟩ := pair
              simp only [Option.bind_some, Option.map_eq_some_iff, ih, Prod.ext_iff, Prod.map_fst,
                Prod.map_snd, id_eq]
              grind

/-- A reader that reads more finds the same items. -/
theorem holds_mono {other : List Symbol → Option (Item × List Symbol)}
    (extended : ∀ {input rest : List Symbol} {item : Item}, read input = some (item, rest) →
      other input = some (item, rest))
    {input : List Symbol} {items : List Item} (holds : Holds read input items) :
    Holds other input items := by
  induction holds with
  | nil => exact .nil
  | cons nonempty first _ ih => exact .cons nonempty (extended first) ih

/-- With every item the input becomes shorter, so its length is enough fuel. -/
theorem read_all_of_holds
    (shorter : ∀ {input rest : List Symbol} {item : Item},
      read input = some (item, rest) → rest.length < input.length)
    {input : List Symbol} {items : List Item} (holds : Holds read input items) {fuel : Nat}
    (enough : input.length ≤ fuel) : readAll read fuel input = some items := by
  induction holds generalizing fuel with
  | nil => cases fuel <;> rfl
  | cons nonempty first _ ih =>
      have smaller := shorter first
      obtain ⟨next, rfl⟩ : ∃ next, fuel = next + 1 := ⟨fuel - 1, by omega⟩
      have later := ih (Nat.le_of_lt_succ (Nat.lt_of_lt_of_le smaller enough))
      rw [read_all_cons nonempty, first, Option.bind_some]
      simp only [later, Option.map_some]

theorem holds_append
    (extend : ∀ {input rest : List Symbol} {item : Item}, read input = some (item, rest) →
      ∀ more, read (input ++ more) = some (item, rest ++ more))
    {first second : List Symbol} {items more : List Item} (holds : Holds read first items)
    (behind : Holds read second more) : Holds read (first ++ second) (items ++ more) := by
  induction holds with
  | nil => exact behind
  | cons nonempty head _ ih =>
      exact .cons (List.append_ne_nil_of_left_ne_nil nonempty _) (extend head second) ih

/-- The items a writer puts one after the other are held by the result. -/
theorem holds_written {write : Item → List Symbol} {items : List Item}
    (nonempty : ∀ item ∈ items, write item ≠ [])
    (reads : ∀ item ∈ items, ∀ rest, read (write item ++ rest) = some (item, rest)) :
    Holds read (items.map write).flatten items := by
  induction items with
  | nil => exact .nil
  | cons item items ih =>
      rw [List.map_cons, List.flatten_cons]
      have written := nonempty item List.mem_cons_self
      apply Holds.cons (List.append_ne_nil_of_left_ne_nil written _)
      · exact reads item List.mem_cons_self _
      · apply ih
        · exact fun other member => nonempty other (List.mem_cons_of_mem _ member)
        · exact fun other member => reads other (List.mem_cons_of_mem _ member)

/-- Contents read one by one give an item each. -/
theorem map_m_eq_some_iff {Content : Type u} {Result : Type u} {each : Content → Option Result}
    {contents : List Content} {results : List Result} :
    contents.mapM each = some results ↔
      List.Forall₂ (fun content result => each content = some result) contents results := by
  induction contents generalizing results with
  | nil => simp [eq_comm]
  | cons content contents ih =>
      rw [List.mapM_cons, Option.bind_eq_bind, Option.bind_eq_some_iff]
      constructor
      · rintro ⟨result, first, found⟩
        obtain ⟨others, tail, same⟩ := Option.bind_eq_some_iff.mp found
        cases same
        exact .cons first (ih.mp tail)
      · intro pairs
        cases pairs with
        | cons first tail => exact ⟨_, first, Option.bind_eq_some_iff.mpr ⟨_, ih.mpr tail, rfl⟩⟩

theorem map_m_mono {Content : Type u} {Result : Type u} {each other : Content → Option Result}
    (extended : ∀ content result, each content = some result → other content = some result)
    {contents : List Content} {results : List Result} (found : contents.mapM each = some results) :
    contents.mapM other = some results :=
  map_m_eq_some_iff.mpr ((map_m_eq_some_iff.mp found).imp extended)

theorem map_m_length {Content : Type u} {Result : Type u} {each : Content → Option Result}
    {contents : List Content} {results : List Result} (found : contents.mapM each = some results) :
    contents.length = results.length :=
  (map_m_eq_some_iff.mp found).length_eq

end ProtobufLkm.ItemSequence
