import SchemaBinding.Proofs.Contents

/-!
# Functions of contents

Equality and loose equality, membership, the order of numbers, the conversions and what can be
written in a message all depend on what values hold, and not on which lists are one.
-/

namespace SchemaBinding

namespace Value

/-- The JSON kind of a value depends on what it holds. -/
@[simp] theorem kind_unlabelled (v : Value) : v.unlabelled.kind = v.kind := by
  cases v <;> rfl

/-- Whether a value is a number depends on what it holds. -/
@[simp] theorem isNumber_unlabelled (v : Value) : v.unlabelled.isNumber = v.isNumber := by
  rw [isNumber, isNumber, kind_unlabelled]

/-- The whole number that a value is depends on what it holds. -/
@[simp] theorem asInt?_unlabelled (v : Value) : v.unlabelled.asInt? = v.asInt? := by
  cases v <;> rfl

/-- The place of a value among numbers depends on what it holds. -/
@[simp] theorem place?_unlabelled (v : Value) : v.unlabelled.place? = v.place? := by
  cases v <;> rfl

/-- How a value compares with a number depends on what it holds. -/
@[simp] theorem numberOrder?_unlabelled (a b : Value) :
    a.unlabelled.numberOrder? b = a.numberOrder? b := by
  rw [numberOrder?, numberOrder?, asInt?_unlabelled, place?_unlabelled]

/-- Whether two values are one not-a-number depends on what they hold. -/
@[simp] theorem sameNaN_unlabelled (a b : Value) :
    sameNaN a.unlabelled b.unlabelled = sameNaN a b := by
  cases a <;> cases b <;> simp [sameNaN]

private theorem eqItems_unlabelled (as bs : List Value)
    (h : ∀ a ∈ as, ∀ b : Value, a.unlabelled.eq b.unlabelled = a.eq b) :
    eqItems (as.map unlabelled) (bs.map unlabelled) = eqItems as bs := by
  induction as generalizing bs with
  | nil => cases bs <;> rfl
  | cons a as ih =>
    cases bs with
    | nil => rfl
    | cons b bs =>
      have ha := h a (List.mem_cons_self ..) b
      have hs := ih bs fun c hc => h c (List.mem_cons_of_mem a hc)
      simp only [List.map_cons, eqItems, sameNaN_unlabelled, ha, hs]

private theorem eqEntry_unlabelled (e : Value × Value) (bs : List (Value × Value))
    (hk : ∀ b : Value, e.1.unlabelled.eq b.unlabelled = e.1.eq b)
    (hv : ∀ b : Value, e.2.unlabelled.eq b.unlabelled = e.2.eq b) :
    eqEntry (unlabelledEntry e) (bs.map unlabelledEntry) = eqEntry e bs := by
  obtain ⟨k, v⟩ := e
  have hf : (fun b : Value × Value => sameNaN k.unlabelled b.1 || k.unlabelled.eq b.1) ∘
      unlabelledEntry = fun b => sameNaN k b.1 || k.eq b.1 := by
    funext b
    simp only [Function.comp, unlabelledEntry, sameNaN_unlabelled, hk]
  simp only [eqEntry, unlabelledEntry, List.find?_map]
  rw [hf]
  cases List.find? (fun b => sameNaN k b.1 || k.eq b.1) bs with
  | none => rfl
  | some b => simp only [Option.map_some, unlabelledEntry, sameNaN_unlabelled, hv]

private theorem eqEntries_unlabelled (as bs : List (Value × Value))
    (h : ∀ e ∈ as, (∀ b : Value, e.1.unlabelled.eq b.unlabelled = e.1.eq b) ∧
      ∀ b : Value, e.2.unlabelled.eq b.unlabelled = e.2.eq b) :
    eqEntries (as.map unlabelledEntry) (bs.map unlabelledEntry) = eqEntries as bs := by
  induction as with
  | nil => rfl
  | cons e as ih =>
    have he := h e (List.mem_cons_self ..)
    simp only [List.map_cons, eqEntries, eqEntry_unlabelled e bs he.1 he.2,
      ih fun c hc => h c (List.mem_cons_of_mem e hc)]

private theorem eqAttrs_unlabelled (as bs : List (String × Value))
    (h : ∀ a ∈ as, ∀ b : Value, a.2.unlabelled.eq b.unlabelled = a.2.eq b) :
    eqAttrs (as.map unlabelledAttr) (bs.map unlabelledAttr) = eqAttrs as bs := by
  induction as with
  | nil => rfl
  | cons a as ih =>
    obtain ⟨name, v⟩ := a
    have hv := h (name, v) (List.mem_cons_self ..)
    have hf : (fun b : String × Value => b.1 == name) ∘ unlabelledAttr =
        fun b => b.1 == name := rfl
    simp only [List.map_cons, eqAttrs, ih fun c hc => h c (List.mem_cons_of_mem _ hc), eqAttr,
      unlabelledAttr, List.find?_map]
    rw [hf]
    cases List.find? (fun b : String × Value => b.1 == name) bs with
    | none => rfl
    | some b => simp only [Option.map_some, unlabelledAttr, sameNaN_unlabelled, hv]

/-- Whether two values are equal depends on what they hold. -/
@[simp] theorem eq_unlabelled (a b : Value) : a.unlabelled.eq b.unlabelled = a.eq b := by
  induction a generalizing b with
  | list items label ih =>
    cases b with
    | list others _ => simpa only [unlabelled_list, eq] using eqItems_unlabelled items others ih
    | _ => rfl
  | tuple items ih =>
    cases b with
    | tuple others => simpa only [unlabelled_tuple, eq] using eqItems_unlabelled items others ih
    | _ => rfl
  | dict entries ih =>
    cases b with
    | dict others =>
      simp only [unlabelled_dict, eq, List.length_map, eqEntries_unlabelled entries others ih]
    | _ => rfl
  | record cls attrs ih =>
    cases b with
    | record other others =>
      simp only [unlabelled_record, eq, List.length_map, eqAttrs_unlabelled attrs others ih]
    | _ => rfl
  | _ => cases b <;> rfl

/-- Equality depends on what the value on the right holds. -/
@[simp] theorem eq_unlabelled_right (a b : Value) : a.eq b.unlabelled = a.eq b := by
  rw [← eq_unlabelled a b.unlabelled, unlabelled_unlabelled, eq_unlabelled]

/-- Equality depends on what the value on the left holds. -/
@[simp] theorem eq_unlabelled_left (a b : Value) : a.unlabelled.eq b = a.eq b := by
  rw [← eq_unlabelled a.unlabelled b, unlabelled_unlabelled, eq_unlabelled]

private theorem printableItems_unlabelled (vs : List Value)
    (h : ∀ v ∈ vs, v.unlabelled.printable = v.printable) :
    printableItems (vs.map unlabelled) = printableItems vs := by
  induction vs with
  | nil => rfl
  | cons v vs ih =>
    simp only [List.map_cons, printableItems, h v (List.mem_cons_self ..),
      ih fun u hu => h u (List.mem_cons_of_mem v hu)]

private theorem printableEntries_unlabelled (es : List (Value × Value))
    (h : ∀ e ∈ es, e.1.unlabelled.printable = e.1.printable ∧
      e.2.unlabelled.printable = e.2.printable) :
    printableEntries (es.map unlabelledEntry) = printableEntries es := by
  induction es with
  | nil => rfl
  | cons e es ih =>
    obtain ⟨k, v⟩ := e
    have he := h (k, v) (List.mem_cons_self ..)
    simp only [List.map_cons, printableEntries, printableEntry, unlabelledEntry, he.1, he.2]
    rw [ih fun u hu => h u (List.mem_cons_of_mem _ hu)]

private theorem printableAttrs_unlabelled (as : List (String × Value))
    (h : ∀ a ∈ as, a.2.unlabelled.printable = a.2.printable) :
    printableAttrs (as.map unlabelledAttr) = printableAttrs as := by
  induction as with
  | nil => rfl
  | cons a as ih =>
    obtain ⟨name, v⟩ := a
    have ha := h (name, v) (List.mem_cons_self ..)
    simp only [List.map_cons, printableAttrs, printableAttr, unlabelledAttr, ha]
    rw [ih fun u hu => h u (List.mem_cons_of_mem _ hu)]

/-- Whether a value can be shown depends on what it holds. -/
@[simp] theorem printable_unlabelled (v : Value) : v.unlabelled.printable = v.printable := by
  induction v with
  | list items label ih =>
      simpa only [unlabelled_list, printable] using printableItems_unlabelled items ih
  | tuple items ih =>
      simpa only [unlabelled_tuple, printable] using printableItems_unlabelled items ih
  | dict entries ih =>
    simpa only [unlabelled_dict, printable] using printableEntries_unlabelled entries ih
  | record cls attrs ih =>
    simp only [unlabelled_record, printable, printableAttrs_unlabelled attrs ih]
  | _ => rfl

private theorem itemTexts_unlabelled (vs : List Value)
    (h : ∀ v ∈ vs, v.unlabelled.text = v.text) :
    itemTexts (vs.map unlabelled) = itemTexts vs := by
  induction vs with
  | nil => rfl
  | cons v vs ih =>
    simp only [List.map_cons, itemTexts, h v (List.mem_cons_self ..),
      ih fun u hu => h u (List.mem_cons_of_mem v hu)]

private theorem entryTexts_unlabelled (es : List (Value × Value))
    (h : ∀ e ∈ es, e.1.unlabelled.text = e.1.text ∧ e.2.unlabelled.text = e.2.text) :
    entryTexts (es.map unlabelledEntry) = entryTexts es := by
  induction es with
  | nil => rfl
  | cons e es ih =>
    obtain ⟨k, v⟩ := e
    have he := h (k, v) (List.mem_cons_self ..)
    simp only [List.map_cons, entryTexts, entryText, unlabelledEntry, he.1, he.2]
    rw [ih fun u hu => h u (List.mem_cons_of_mem _ hu)]

private theorem attrTexts_unlabelled (as : List (String × Value))
    (h : ∀ a ∈ as, a.2.unlabelled.text = a.2.text) :
    attrTexts (as.map unlabelledAttr) = attrTexts as := by
  induction as with
  | nil => rfl
  | cons a as ih =>
    obtain ⟨name, v⟩ := a
    have ha := h (name, v) (List.mem_cons_self ..)
    simp only [List.map_cons, attrTexts, attrText, unlabelledAttr, ha]
    rw [ih fun u hu => h u (List.mem_cons_of_mem _ hu)]

/-- The text of a value shows what it holds. -/
@[simp] theorem text_unlabelled (v : Value) : v.unlabelled.text = v.text := by
  induction v with
  | list items label ih => simp only [unlabelled_list, text, itemTexts_unlabelled items ih]
  | tuple items ih => simp only [unlabelled_tuple, text, itemTexts_unlabelled items ih]
  | dict entries ih => simp only [unlabelled_dict, text, entryTexts_unlabelled entries ih]
  | record cls attrs ih => simp only [unlabelled_record, text, attrTexts_unlabelled attrs ih]
  | _ => rfl

/-- The words for a value depend on what it holds. -/
@[simp] theorem words_unlabelled (v : Value) : v.unlabelled.words = v.words := by
  have h := text_unlabelled v
  cases v with
  | list items label => simpa only [unlabelled_list, words] using h
  | tuple items => simpa only [unlabelled_tuple, words] using h
  | dict entries => simpa only [unlabelled_dict, words] using h
  | record cls attrs => simpa only [unlabelled_record, words] using h
  | _ => rfl

/-- The keys and values of a dictionary can be shown if it can. -/
theorem printable_of_mem {entries : List (Value × Value)}
    (h : (Value.dict entries).printable = true) {e : Value × Value} (he : e ∈ entries) :
    e.1.printable = true ∧ e.2.printable = true := by
  change printableEntries entries = true at h
  induction entries with
  | nil => cases he
  | cons f rest ih =>
    obtain ⟨k, u⟩ := f
    obtain ⟨hf, hrest⟩ := Bool.and_eq_true_iff.mp h
    rcases List.mem_cons.mp he with rfl | he
    · exact Bool.and_eq_true_iff.mp hf
    · exact ih he hrest

/-- What a dictionary has under a text is in one of its entries. -/
theorem mem_of_lookup? {key : String} {entries : List (Value × Value)} {v : Value}
    (h : lookup? key entries = some v) : ∃ k, (k, v) ∈ entries := by
  induction entries with
  | nil => cases h
  | cons e rest ih =>
    have hrest : lookup? key rest = some v → ∃ k, (k, v) ∈ e :: rest := fun hr => by
      obtain ⟨k, hk⟩ := ih hr
      exact ⟨k, List.mem_cons_of_mem e hk⟩
    obtain ⟨k, u⟩ := e
    cases k with
    | str s =>
      simp only [lookup?] at h
      split at h
      · cases h
        exact ⟨.str s, List.mem_cons_self ..⟩
      · exact hrest h
    | _ => exact hrest h

/-- What a dictionary holds under a text. -/
theorem lookup?_unlabelled (key : String) (entries : List (Value × Value)) :
    lookup? key (entries.map unlabelledEntry) = (lookup? key entries).map unlabelled := by
  induction entries with
  | nil => rfl
  | cons e rest ih =>
    obtain ⟨k, v⟩ := e
    cases k with
    | str s =>
      simp only [List.map_cons, unlabelledEntry, unlabelled_str, lookup?]
      split
      · rfl
      · exact ih
    | _ => exact ih

end Value

/-! ### Loose equality, membership and comparisons -/

/-- Loose equality depends on what both values hold. -/
@[simp] theorem looseEq_unlabelled (a b : Value) :
    looseEq a.unlabelled b.unlabelled = looseEq a b := by
  simp only [looseEq, Value.eq_unlabelled]
  split
  · rfl
  · cases a <;> cases b <;> rfl

/-- Loose equality depends on what the value on the right holds. -/
@[simp] theorem looseEq_unlabelled_right (a b : Value) :
    looseEq a b.unlabelled = looseEq a b := by
  rw [← looseEq_unlabelled a b.unlabelled, Value.unlabelled_unlabelled, looseEq_unlabelled]

/-- Loose equality depends on what the value on the left holds. -/
@[simp] theorem looseEq_unlabelled_left (a b : Value) :
    looseEq a.unlabelled b = looseEq a b := by
  rw [← looseEq_unlabelled a.unlabelled b, Value.unlabelled_unlabelled, looseEq_unlabelled]

/-- Whether a union has a value depends on what the value holds. -/
@[simp] theorem isMember_unlabelled (v : Value) (members : List Value) :
    isMember v.unlabelled members = isMember v members := by
  induction members with
  | nil => rfl
  | cons m rest ih => simp only [isMember, looseEq_unlabelled_right, ih]

/-- Whether a comparison holds of a value depends on what the value holds. -/
@[simp] theorem Comparison.holds_unlabelled (c : Comparison) (v : Value) :
    c.holds v.unlabelled = c.holds v := by
  simp only [Comparison.holds, looseEq_unlabelled_left, Value.numberOrder?_unlabelled]

/-- The integer that a value is read as depends on what it holds. -/
@[simp] theorem Value.toInteger?_unlabelled (v : Value) :
    v.unlabelled.toInteger? = v.toInteger? := by
  cases v <;> simp [Value.toInteger?]

/-- The floating-point number that a value is read as depends on what it holds. -/
@[simp] theorem Value.toDouble?_unlabelled (v : Value) : v.unlabelled.toDouble? = v.toDouble? := by
  cases v <;> simp [Value.toDouble?]

/-- The truth of a value depends on what it holds. -/
@[simp] theorem Value.truth_unlabelled (v : Value) : v.unlabelled.truth = v.truth := by
  cases v <;> simp [Value.truth]

/-- What a primitive kind makes of a value depends on what the value holds. -/
@[simp] theorem Primitive.coerce_unlabelled (p : Primitive) (v : Value) :
    p.coerce v.unlabelled = p.coerce v := by
  cases p with
  | number => cases v <;> simp [coerce]
  | _ => simp [coerce]

/-- A conversion to a primitive kind depends on what a value holds. -/
@[simp] theorem Primitive.convert_unlabelled (p : Primitive) (v : Value) :
    p.convert v.unlabelled = p.convert v := by
  rw [convert, convert, coerce_unlabelled, Value.kind_unlabelled]

/-- The date that a value is read as depends on what it holds. -/
@[simp] theorem parseDate_unlabelled (v : Value) (target : DateTarget) :
    parseDate v.unlabelled target = parseDate v target := by
  cases v with
  | list items label => rfl
  | tuple items => rfl
  | dict entries => rfl
  | record cls attrs => rfl
  | _ => simp

end SchemaBinding
