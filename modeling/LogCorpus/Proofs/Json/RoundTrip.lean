/-
JSON values, read back.

A value in which every string has a text and every number is an integer is read
back from its shortest text, whatever follows that a value may be followed by.
The induction is on the value; a list of items or members is read back when each
of its values is.
-/
import LogCorpus.Proofs.Json.Scalar

namespace LogCorpus

theorem skipJsonBlanks_cons {c : Char} (hc : isJsonBlank c = false) (rest : List Char) :
    skipJsonBlanks (c :: rest) = c :: rest := by
  rw [skipJsonBlanks, List.dropWhile_cons_of_neg (by rw [hc]; exact Bool.false_ne_true)]

/-- Nothing follows, or what separates or ends the values of a list. -/
def EndsValue (text : List Char) : Prop :=
  ∀ c ∈ text.head?, c = ',' ∨ c = ']' ∨ c = '\x7d'

theorem EndsValue.endsNumber {text : List Char} (htext : EndsValue text) :
    EndsNumber text := by
  intro c hc
  rcases htext c hc with rfl | rfl | rfl <;> decide

theorem commaSeparated_cons_cons (first second : List Char) (rest : List (List Char)) :
    commaSeparated (first :: second :: rest) =
      first ++ ',' :: commaSeparated (second :: rest) := by
  rw [commaSeparated, List.intercalate_cons_cons, List.append_assoc]
  rfl

namespace Json

/-- Every string has a text and every number is an integer. -/
inductive Lossless : Json → Prop where
  | null : Lossless .null
  | bool (value : Bool) : Lossless (.bool value)
  | integer (value : Int) : Lossless (.integer value)
  | text (text : String) : Lossless (.text text)
  | array {items : List Json} (hitems : ∀ item ∈ items, Lossless item) :
      Lossless (.array items)
  | object {members : List (Option String × Json)}
      (hkeys : ∀ member ∈ members, member.1.isSome)
      (hmembers : ∀ member ∈ members, Lossless member.2) :
      Lossless (.object members)

theorem Lossless.natural (number : Nat) : Lossless (.natural number) :=
  .integer number

theorem Lossless.map {write : α → Json} (hwrite : ∀ item, (write item).Lossless)
    (items : List α) : Lossless (.array (items.map write)) := by
  apply Lossless.array
  intro value hvalue
  obtain ⟨item, _, rfl⟩ := List.mem_map.mp hvalue
  exact hwrite item

theorem Lossless.ofMembers {members : List (String × Json)}
    (hmembers : ∀ member ∈ members, member.2.Lossless) :
    Lossless (.ofMembers members) := by
  apply Lossless.object
  · intro named hnamed
    obtain ⟨member, _, rfl⟩ := List.mem_map.mp hnamed
    rfl
  · intro named hnamed
    obtain ⟨member, hmember, rfl⟩ := List.mem_map.mp hnamed
    exact hmembers member hmember

/-- A value is read back from its text, given two steps for each of its
characters, whatever a value may be followed by. -/
def ReadBack (value : Json) : Prop :=
  ∀ fuel rest, 2 * value.render.length ≤ fuel + 1 → EndsValue rest →
    readJson (fuel + 1) (value.render ++ rest) = some (value, rest)

/-! ### First characters -/

theorem isJsonBlank_of_isDigit {c : Char} (hc : c.isDigit) : isJsonBlank c = false := by
  rw [isJsonBlank, ← Bool.not_eq_true]
  simp only [Bool.or_eq_true, decide_eq_true_eq]
  rintro (((rfl | rfl) | rfl) | rfl) <;> exact absurd hc (by decide)

/-- An integer starts with a digit or with a minus sign and a digit. -/
theorem exists_toDigits_eq_cons (number : Nat) :
    ∃ c rest, Nat.toDigits 10 number = c :: rest ∧ c.isDigit := by
  obtain ⟨c, rest, hdigits⟩ := List.exists_cons_of_ne_nil
    (Nat.toDigits_ne_nil : Nat.toDigits 10 number ≠ [])
  refine ⟨c, rest, hdigits, Nat.isDigit_of_mem_toDigits (b := 10) (n := number)
    (by decide) (by decide) ?_⟩
  rw [hdigits]
  exact List.mem_cons_self

/-- No value starts with a blank or with the end of an array. -/
theorem Lossless.exists_render_eq_cons {value : Json} (hvalue : value.Lossless) :
    ∃ c rest, value.render = c :: rest ∧ isJsonBlank c = false ∧ c ≠ ']' := by
  cases hvalue with
  | null => exact ⟨_, _, rfl, rfl, by decide⟩
  | bool value => cases value <;> exact ⟨_, _, rfl, rfl, by decide⟩
  | integer value =>
      cases value with
      | ofNat number =>
          obtain ⟨c, rest, hdigits, hc⟩ := exists_toDigits_eq_cons number
          refine ⟨c, rest, hdigits, isJsonBlank_of_isDigit hc, ?_⟩
          rintro rfl
          exact absurd hc (by decide)
      | negSucc number => exact ⟨_, _, rfl, rfl, by decide⟩
  | text text => exact ⟨_, _, rfl, rfl, by decide⟩
  | array hitems => exact ⟨_, _, rfl, rfl, by decide⟩
  | object hkeys hmembers => exact ⟨_, _, rfl, rfl, by decide⟩

theorem exists_commaSeparated_items_eq_cons {head : Json} (hhead : head.Lossless)
    (tail : List Json) :
    ∃ c rest, commaSeparated (renderItems (head :: tail)) = c :: rest ∧
      isJsonBlank c = false ∧ c ≠ ']' := by
  obtain ⟨c, rest, hrender, hc⟩ := hhead.exists_render_eq_cons
  cases tail with
  | nil =>
      rw [renderItems, renderItems, commaSeparated, List.intercalate_singleton]
      exact ⟨c, rest, hrender, hc⟩
  | cons second others =>
      rw [renderItems, renderItems, commaSeparated_cons_cons, hrender]
      exact ⟨c, _, rfl, hc⟩

theorem exists_commaSeparated_members_eq_cons {head : Option String × Json}
    (hhead : head.1.isSome) (tail : List (Option String × Json)) :
    ∃ rest, commaSeparated (renderMembers (head :: tail)) = '"' :: rest := by
  obtain ⟨name, value⟩ := head
  obtain ⟨key, rfl⟩ : ∃ key, name = some key := Option.isSome_iff_exists.mp hhead
  cases tail with
  | nil =>
      rw [renderMembers, renderMembers, commaSeparated, List.intercalate_singleton]
      exact ⟨_, rfl⟩
  | cons second others =>
      obtain ⟨nextName, nextValue⟩ := second
      rw [renderMembers, renderMembers, commaSeparated_cons_cons]
      exact ⟨_, rfl⟩

theorem Lossless.length_pos {value : Json} (hvalue : value.Lossless) :
    0 < value.render.length := by
  obtain ⟨c, rest, hrender, _⟩ := hvalue.exists_render_eq_cons
  rw [hrender]
  exact Nat.succ_pos _

theorem readJson_digit {c : Char} (hc : c.isDigit) (fuel : Nat) (rest : List Char) :
    readJson (fuel + 1) (c :: rest) = readNumber? false (c :: rest) := by
  rw [readJson, skipJsonBlanks_cons (isJsonBlank_of_isDigit hc)]
  -- every other form starts with a character that is no digit
  split
  case h_8 => rfl
  all_goals
    next heq =>
      injection heq with hfirst
      subst hfirst
      exact absurd hc (by decide)

theorem readJson_array {c : Char} (hblank : isJsonBlank c = false) (hc : c ≠ ']')
    (fuel : Nat) (rest : List Char) :
    readJson (fuel + 1) ('[' :: c :: rest) =
      (readItems fuel (c :: rest)).map fun (items, rest) => (.array items, rest) := by
  have hopen : isJsonBlank '[' = false := rfl
  simp only [readJson, skipJsonBlanks_cons hblank, skipJsonBlanks_cons hopen]
  split
  case h_1 heq =>
    injection heq with hfirst
    exact absurd hfirst hc
  case h_2 => rfl

theorem readJson_object (fuel : Nat) (rest : List Char) :
    readJson (fuel + 1) ('\x7b' :: '"' :: rest) =
      (readMembers fuel ('"' :: rest)).map fun (members, rest) =>
        (.object members, rest) := by
  have hopen : isJsonBlank '\x7b' = false := rfl
  have hquote : isJsonBlank '"' = false := rfl
  simp only [readJson, skipJsonBlanks_cons hopen, skipJsonBlanks_cons hquote]
  split
  case h_1 heq =>
    injection heq with hfirst
    exact absurd hfirst (by decide)
  case h_2 => rfl

/-! ### Lists of values -/

theorem readItems_last {item : Json} (hread : item.ReadBack) {fuel : Nat}
    (rest : List Char) (hfuel : 2 * item.render.length ≤ fuel + 1) :
    readItems (fuel + 2) (item.render ++ ']' :: rest) = some ([item], rest) := by
  have hclose : isJsonBlank ']' = false := rfl
  have hitem := hread fuel (']' :: rest) hfuel (by simp [EndsValue])
  simp [readItems, hitem, skipJsonBlanks_cons hclose]

theorem readItems_more {item : Json} (hread : item.ReadBack) {fuel : Nat}
    (text : List Char) (hfuel : 2 * item.render.length ≤ fuel + 1) :
    readItems (fuel + 2) (item.render ++ ',' :: text) =
      (readItems (fuel + 1) text).map fun (items, rest) => (item :: items, rest) := by
  have hcomma : isJsonBlank ',' = false := rfl
  have hitem := hread fuel (',' :: text) hfuel (by simp [EndsValue])
  rw [readItems, hitem]
  simp only [Option.bind_eq_bind, Option.bind_some, skipJsonBlanks_cons hcomma]
  cases readItems (fuel + 1) text <;> rfl

theorem readItems_render {items : List Json} (hne : items ≠ [])
    (hitems : ∀ item ∈ items, item.Lossless ∧ item.ReadBack) (fuel : Nat)
    (rest : List Char)
    (hfuel : 2 * (commaSeparated (renderItems items)).length ≤ fuel) :
    readItems (fuel + 1) (commaSeparated (renderItems items) ++ ']' :: rest) =
      some (items, rest) := by
  induction items generalizing fuel with
  | nil => exact absurd rfl hne
  | cons head tail ih =>
      obtain ⟨hlossless, hread⟩ := hitems head List.mem_cons_self
      have hlength := hlossless.length_pos
      have htail : ∀ item ∈ tail, item.Lossless ∧ item.ReadBack :=
        fun item hitem => hitems item (List.mem_cons_of_mem head hitem)
      cases tail with
      | nil =>
          rw [renderItems, renderItems, commaSeparated, List.intercalate_singleton]
            at hfuel ⊢
          obtain ⟨fuel, rfl⟩ := Nat.exists_eq_add_of_le' (by omega : 1 ≤ fuel)
          exact readItems_last hread rest (by omega)
      | cons second others =>
          rw [renderItems, renderItems, commaSeparated_cons_cons, ← renderItems]
            at hfuel ⊢
          rw [List.length_append, List.length_cons] at hfuel
          obtain ⟨fuel, rfl⟩ := Nat.exists_eq_add_of_le' (by omega : 1 ≤ fuel)
          rw [List.append_assoc, List.cons_append, readItems_more hread _ (by omega),
            ih (List.cons_ne_nil _ _) htail fuel (by omega)]
          rfl

theorem readMembers_last {value : Json} (hread : value.ReadBack) {fuel : Nat}
    (key : String) (rest : List Char) (hfuel : 2 * value.render.length ≤ fuel + 1) :
    readMembers (fuel + 2)
        (renderString (some key) ++ ':' :: (value.render ++ '\x7d' :: rest)) =
      some ([(some key, value)], rest) := by
  have hquote : isJsonBlank '"' = false := rfl
  have hcolon : isJsonBlank ':' = false := rfl
  have hclose : isJsonBlank '\x7d' = false := rfl
  have hvalue := hread fuel ('\x7d' :: rest) hfuel (by simp [EndsValue])
  simp [readMembers, renderString, skipJsonBlanks_cons hquote,
    readString?_escaped, skipJsonBlanks_cons hcolon, hvalue, skipJsonBlanks_cons hclose]

theorem readMembers_more {value : Json} (hread : value.ReadBack) {fuel : Nat}
    (key : String) (text : List Char) (hfuel : 2 * value.render.length ≤ fuel + 1) :
    readMembers (fuel + 2)
        (renderString (some key) ++ ':' :: (value.render ++ ',' :: text)) =
      (readMembers (fuel + 1) text).map fun (members, rest) =>
        ((some key, value) :: members, rest) := by
  have hquote : isJsonBlank '"' = false := rfl
  have hcolon : isJsonBlank ':' = false := rfl
  have hcomma : isJsonBlank ',' = false := rfl
  have hvalue := hread fuel (',' :: text) hfuel (by simp [EndsValue])
  rw [readMembers, renderString, List.cons_append, List.append_assoc,
    List.singleton_append]
  simp only [Option.bind_eq_bind, skipJsonBlanks_cons hquote, readString?_escaped,
    Option.bind_some, skipJsonBlanks_cons hcolon, hvalue, skipJsonBlanks_cons hcomma]
  cases readMembers (fuel + 1) text <;> rfl

theorem readMembers_render {members : List (Option String × Json)}
    (hne : members ≠ []) (hkeys : ∀ member ∈ members, member.1.isSome)
    (hmembers : ∀ member ∈ members, member.2.Lossless ∧ member.2.ReadBack) (fuel : Nat)
    (rest : List Char)
    (hfuel : 2 * (commaSeparated (renderMembers members)).length ≤ fuel) :
    readMembers (fuel + 1) (commaSeparated (renderMembers members) ++ '\x7d' :: rest) =
      some (members, rest) := by
  induction members generalizing fuel with
  | nil => exact absurd rfl hne
  | cons head tail ih =>
      obtain ⟨name, value⟩ := head
      obtain ⟨key, rfl⟩ : ∃ key, name = some key :=
        Option.isSome_iff_exists.mp (hkeys _ List.mem_cons_self)
      obtain ⟨hlossless, hread⟩ : value.Lossless ∧ value.ReadBack :=
        hmembers _ List.mem_cons_self
      have hlength := hlossless.length_pos
      cases tail with
      | nil =>
          rw [renderMembers, renderMembers, commaSeparated, List.intercalate_singleton]
            at hfuel ⊢
          rw [List.length_append, List.length_cons] at hfuel
          obtain ⟨fuel, rfl⟩ := Nat.exists_eq_add_of_le' (by omega : 1 ≤ fuel)
          rw [List.append_assoc, List.cons_append]
          exact readMembers_last hread key rest (by omega)
      | cons second others =>
          obtain ⟨nextName, nextValue⟩ := second
          rw [renderMembers, renderMembers, commaSeparated_cons_cons, ← renderMembers]
            at hfuel ⊢
          rw [List.length_append, List.length_append, List.length_cons,
            List.length_cons] at hfuel
          obtain ⟨fuel, rfl⟩ := Nat.exists_eq_add_of_le' (by omega : 1 ≤ fuel)
          rw [List.append_assoc, List.append_assoc, List.cons_append, List.cons_append,
            readMembers_more hread key _ (by omega),
            ih (List.cons_ne_nil _ _)
              (fun member hmember => hkeys member (List.mem_cons_of_mem _ hmember))
              (fun member hmember => hmembers member (List.mem_cons_of_mem _ hmember))
              fuel (by omega)]
          rfl

/-! ### Whole values -/

theorem Lossless.readBack {value : Json} (hvalue : value.Lossless) :
    value.ReadBack := by
  induction hvalue with
  | null =>
      intro fuel rest _ _
      rfl
  | bool value =>
      intro fuel rest _ _
      cases value <;> rfl
  | integer value =>
      intro fuel rest _ hrest
      cases value with
      | ofNat number =>
          obtain ⟨c, more, hdigits, hc⟩ := exists_toDigits_eq_cons number
          have hread := readNumber?_toDigits false number
            (fun h => absurd h Bool.false_ne_true) hrest.endsNumber
          rw [render, renderInteger]
          rw [hdigits, List.cons_append] at hread ⊢
          exact (readJson_digit hc fuel _).trans hread
      | negSucc number =>
          have hread := readNumber?_toDigits true (number + 1)
            (fun _ => Nat.succ_pos number) hrest.endsNumber
          have hsign : isJsonBlank '-' = false := rfl
          rw [render, renderInteger, List.cons_append, readJson,
            skipJsonBlanks_cons hsign]
          exact hread
  | text text =>
      intro fuel rest _ _
      have hquote : isJsonBlank '"' = false := rfl
      rw [Json.text, render, renderString, List.cons_append, List.append_assoc,
        List.singleton_append, readJson, skipJsonBlanks_cons hquote]
      simp only [readString?_escaped, Option.map_some]
  | @array items hitems ih =>
      intro fuel rest hfuel hrest
      rw [render, List.cons_append, List.append_assoc, List.singleton_append]
      cases items with
      | nil => rfl
      | cons head tail =>
          obtain ⟨c, more, hrender, hblank, hc⟩ :=
            exists_commaSeparated_items_eq_cons (hitems head List.mem_cons_self) tail
          have hread := readItems_render (List.cons_ne_nil head tail)
            (fun item hitem => ⟨hitems item hitem, ih item hitem⟩)
          rw [render, List.length_cons, List.length_append] at hfuel
          obtain ⟨fuel, rfl⟩ := Nat.exists_eq_add_of_le' (by omega : 1 ≤ fuel)
          have hitems := hread fuel rest (by omega)
          rw [hrender, List.cons_append] at hitems ⊢
          rw [readJson_array hblank hc, hitems]
          rfl
  | @object members hkeys hmembers ih =>
      intro fuel rest hfuel hrest
      rw [render, List.cons_append, List.append_assoc, List.singleton_append]
      cases members with
      | nil => rfl
      | cons head tail =>
          obtain ⟨more, hrender⟩ :=
            exists_commaSeparated_members_eq_cons (hkeys head List.mem_cons_self) tail
          have hread := readMembers_render (List.cons_ne_nil head tail) hkeys
            (fun member hmember => ⟨hmembers member hmember, ih member hmember⟩)
          rw [render, List.length_cons, List.length_append] at hfuel
          obtain ⟨fuel, rfl⟩ := Nat.exists_eq_add_of_le' (by omega : 1 ≤ fuel)
          have hmembers := hread fuel rest (by omega)
          rw [hrender, List.cons_append] at hmembers ⊢
          rw [readJson_object, hmembers]
          rfl

/-- A lossless value is what its line denotes. -/
theorem Lossless.parse?_line {value : Json} (hvalue : value.Lossless) :
    parse? value.line = some value := by
  have hread : readJson (2 * value.render.length + 2) value.render =
      some (value, []) := by
    have hback := hvalue.readBack (2 * value.render.length + 1) [] (by omega)
      (by simp [EndsValue])
    rwa [List.append_nil] at hback
  have htext : value.line.toList = value.render := String.toList_ofList
  have hrest : skipJsonBlanks [] = [] := rfl
  rw [parse?, htext, hread]
  simp only [Option.bind_eq_bind, Option.bind_some, hrest, if_true]

theorem naturalBelow?_natural {bound number : Nat} (hnumber : number < bound) :
    (natural number).naturalBelow? bound = some number := by
  have hrange : (0 : Int) ≤ number ∧ (number : Int) < bound :=
    ⟨Int.natCast_nonneg number, Int.ofNat_lt.mpr hnumber⟩
  rw [natural, naturalBelow?, if_pos hrange, Int.toNat_natCast]

end Json

end LogCorpus
