import Mathlib

/-!
# Items between delimiters

A list in a text: items with a separator between them and a closing symbol after
the last.  `readItems` reads such a list with any reader of one item.  Its rule is
`readItems_intercalate`: when the reader gives each item back up to the delimiter
after it, the whole list is read back, whatever follows it.
-/

namespace DelimitedItems

variable {σ α : Type}

/-- There are separators between the items. -/
theorem length_le_intercalate (separator : σ) (item : List σ) (items : List (List σ)) :
    items.length ≤ ([separator].intercalate (item :: items)).length := by
  induction items generalizing item with
  | nil => simp
  | cons next items ih =>
      have hlater := ih next
      rw [List.intercalate_cons_cons, List.length_append, List.length_append,
        List.length_singleton, List.length_cons]
      omega

variable [DecidableEq σ]

/-- Read items up to the closing symbol, at most `fuel` of them. -/
def readUpTo (readItem : List σ → Option (α × List σ)) (separator close : σ) :
    Nat → List σ → Option (List α × List σ)
  | 0, _ => none
  | fuel + 1, text =>
      (readItem text).bind fun item =>
        match item.2 with
        | [] => none
        | b :: rest =>
            if b = close then some ([item.1], rest)
            else if b = separator then
              (readUpTo readItem separator close fuel rest).map fun read =>
                (item.1 :: read.1, read.2)
            else none

/-- Read items up to the closing symbol.  There is a delimiter after each, so the
length of the text is enough fuel. -/
def readItems (readItem : List σ → Option (α × List σ)) (separator close : σ)
    (text : List σ) : Option (List α × List σ) :=
  readUpTo readItem separator close text.length text

/-- The reader takes a text for an item, up to the delimiter after it. -/
def ReadsAs (readItem : List σ → Option (α × List σ)) (separator close : σ)
    (text : List σ) (item : α) : Prop :=
  ∀ b, b = separator ∨ b = close → ∀ more,
    readItem (text ++ b :: more) = some (item, b :: more)

/-- The reader takes what is written for an item for the item. -/
def ReadsBack (readItem : List σ → Option (α × List σ)) (separator close : σ)
    (write : α → List σ) (item : α) : Prop :=
  ReadsAs readItem separator close (write item) item

variable {readItem : List σ → Option (α × List σ)} {separator close : σ} {write : α → List σ}

theorem readUpTo_texts (hne : separator ≠ close) {item : List σ × α} {items : List (List σ × α)}
    (h : ∀ a ∈ item :: items, ReadsAs readItem separator close a.1 a.2) {fuel : Nat}
    (hfuel : items.length < fuel) (more : List σ) :
    readUpTo readItem separator close fuel
        ([separator].intercalate ((item :: items).map Prod.fst) ++ close :: more) =
      some ((item :: items).map Prod.snd, more) := by
  induction items generalizing item fuel with
  | nil =>
      cases fuel with
      | zero => omega
      | succ fuel =>
          rw [List.map_cons, List.map_nil, List.intercalate_singleton, readUpTo,
            h item List.mem_cons_self close (Or.inr rfl), Option.bind_some]
          simp only [if_true, List.map_cons, List.map_nil]
  | cons next items ih =>
      cases fuel with
      | zero => omega
      | succ fuel =>
          have hlater := ih (fun a ha => h a (List.mem_cons_of_mem _ ha))
            (Nat.lt_of_succ_lt_succ hfuel)
          rw [List.map_cons, List.map_cons, List.intercalate_cons_cons, ← List.map_cons,
            List.append_assoc, List.append_assoc, List.singleton_append, readUpTo,
            h item List.mem_cons_self separator (Or.inl rfl), Option.bind_some]
          simp only [if_neg hne, if_true, hlater, Option.map_some]
          rfl

/-- **A list of texts is read as what they stand for, whatever follows it.** -/
theorem readItems_texts (hne : separator ≠ close) {item : List σ × α} {items : List (List σ × α)}
    (h : ∀ a ∈ item :: items, ReadsAs readItem separator close a.1 a.2) (more : List σ) :
    readItems readItem separator close
        ([separator].intercalate ((item :: items).map Prod.fst) ++ close :: more) =
      some ((item :: items).map Prod.snd, more) := by
  have hlength := length_le_intercalate separator item.1 (items.map Prod.fst)
  rw [List.length_map, ← List.map_cons] at hlength
  refine readUpTo_texts hne h ?_ more
  rw [List.length_append, List.length_cons]
  omega

/-- **A list of items is read back, whatever follows it.** -/
theorem readItems_intercalate (hne : separator ≠ close) {item : α} {items : List α}
    (h : ∀ a ∈ item :: items, ReadsBack readItem separator close write a) (more : List σ) :
    readItems readItem separator close
        ([separator].intercalate ((item :: items).map write) ++ close :: more) =
      some (item :: items, more) := by
  have hall : ∀ a ∈ (write item, item) :: items.map (fun a => (write a, a)),
      ReadsAs readItem separator close a.1 a.2 := by
    intro a ha
    rcases List.mem_cons.mp ha with rfl | hlater
    · exact h item List.mem_cons_self
    · obtain ⟨b, hb, rfl⟩ := List.mem_map.mp hlater
      exact h b (List.mem_cons_of_mem _ hb)
  simpa [Function.comp_def] using readItems_texts hne hall more

end DelimitedItems
