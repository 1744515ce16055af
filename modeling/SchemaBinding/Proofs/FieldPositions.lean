import SchemaBinding.Proofs.FieldInheritance

/-!
# The positions of inherited fields

The fields of a class are those declared on the classes of its order, each once. The position of a
field and its contract come from opposite ends of the order: the position is the one that the field
got on the last class on which it is declared, the contract that of the first. So to declare a field
again before the class that gave it its position moves nothing.
-/

namespace SchemaBinding

namespace Registry

variable {t : ClassTable} {r q : Registry} {c d k : ClassRef} {ks : List ClassRef} {x y : String}

/-- The names of the fields declared on a class itself, in the order in which they were first
declared. -/
def ownNames (r : Registry) (c : ClassRef) : List String := (r.own c).map FieldContract.name

/-- The names of the fields of a class. -/
def fieldNames (t : ClassTable) (r : Registry) (c : ClassRef) : List String :=
  (r.fields t c).map FieldContract.name

/-- The names declared on the classes of an order, those of the last class first: each class adds
the names that no class behind it has. -/
def namesAlong (r : Registry) : List ClassRef → List String
  | [] => []
  | k :: ks => namesAlong r ks ++ (r.ownNames k).filter (· ∉ namesAlong r ks)

private theorem mem_namesAlong : x ∈ r.namesAlong ks ↔ ∃ k ∈ ks, x ∈ r.ownNames k := by
  induction ks with
  | nil => simp [namesAlong]
  | cons k ks ih =>
    rw [namesAlong, List.mem_append, List.mem_filter, List.exists_mem_cons_iff, ← ih]
    by_cases h : x ∈ r.namesAlong ks <;> simp [h]

/-- Contracts laid over others add the names that those do not have. -/
theorem map_name_overlay (fields : List FieldContract) {own : List FieldContract}
    (hn : (own.map FieldContract.name).Nodup) :
    (overlay fields own).map FieldContract.name =
      fields.map FieldContract.name ++
        (own.map FieldContract.name).filter (· ∉ fields.map FieldContract.name) := by
  induction own generalizing fields with
  | nil => simp [overlay]
  | cons f own ih =>
    obtain ⟨hf, hown⟩ := List.nodup_cons.mp hn
    have ho : overlay fields (f :: own) = overlay (putContract fields f) own := rfl
    rw [ho, ih _ hown, map_name_putContract, List.map_cons]
    split
    · next hm => rw [List.filter_cons_of_neg (by simpa using hm)]
    · next hm =>
      rw [List.filter_cons_of_pos (by simpa using hm), List.append_assoc, List.singleton_append]
      -- the name of `f` is not among the others, so that leaving it out changes nothing
      congr 2
      apply List.filter_congr
      intro name hname
      have hne : name ≠ f.name := fun he => hf (he ▸ hname)
      simp [hne]

private theorem fieldNames_eq_namesAlong (hr : r.Distinct) (t : ClassTable) (c : ClassRef) :
    r.fieldNames t c = r.namesAlong (t.order c) := by
  have h : ∀ ks : List ClassRef,
      (ks.reverse.foldl (fun fields k => overlay fields (r.own k)) []).map FieldContract.name =
        r.namesAlong ks := by
    intro ks
    induction ks with
    | nil => rfl
    | cons k ks ih =>
      rw [List.reverse_cons, List.foldl_concat, map_name_overlay _ (hr k), ih]
      rfl
  exact h _

/-- A class is the last of an order on which a field is declared; `behind` are the classes after
it. -/
structure DeclaredLast (r : Registry) (order : List ClassRef) (name : String) (k : ClassRef)
    (behind : List ClassRef) : Prop where
  /-- The class stands in the order before `behind`. -/
  place : ∃ front, order = front ++ k :: behind
  /-- The field is declared on the class. -/
  declared : name ∈ r.ownNames k
  /-- The field is declared on no class after it. -/
  alone : ∀ d ∈ behind, name ∉ r.ownNames d

private theorem DeclaredLast.mem {behind : List ClassRef} (h : r.DeclaredLast ks x k behind) :
    x ∈ r.namesAlong ks := by
  obtain ⟨⟨front, rfl⟩, hd, -⟩ := h
  exact mem_namesAlong.mpr ⟨k, by simp, hd⟩

private theorem DeclaredLast.length_lt {behind : List ClassRef} (h : r.DeclaredLast ks x k behind) :
    behind.length < ks.length := by
  obtain ⟨⟨front, rfl⟩, -, -⟩ := h
  simp only [List.length_append, List.length_cons]
  omega

/-- A class at the front of an order is the last on which a field is declared only if no class
behind it declares the field. -/
theorem declaredLast_cons_iff {behind : List ClassRef} :
    r.DeclaredLast (d :: ks) x k behind ↔
      r.DeclaredLast ks x k behind ∨
        x ∉ r.namesAlong ks ∧ x ∈ r.ownNames d ∧ k = d ∧ behind = ks := by
  constructor
  · rintro ⟨⟨front, hf⟩, hd, ha⟩
    cases front with
    | nil =>
      obtain ⟨rfl, rfl⟩ := List.cons_eq_cons.mp hf
      refine .inr ⟨fun hm => ?_, hd, rfl, rfl⟩
      obtain ⟨e, he, hx⟩ := mem_namesAlong.mp hm
      exact ha e he hx
    | cons e front =>
      obtain ⟨-, rfl⟩ := List.cons_eq_cons.mp hf
      exact .inl ⟨⟨front, rfl⟩, hd, ha⟩
  · rintro (⟨⟨front, rfl⟩, hd, ha⟩ | ⟨hm, hd, rfl, rfl⟩)
    · exact ⟨⟨d :: front, rfl⟩, hd, ha⟩
    · exact ⟨⟨[], rfl⟩, hd, fun e he hx => hm (mem_namesAlong.mpr ⟨e, he, hx⟩)⟩

private theorem exists_declaredLast (h : x ∈ r.namesAlong ks) :
    ∃ k behind, r.DeclaredLast ks x k behind := by
  induction ks with
  | nil => cases h
  | cons d ks ih =>
    by_cases hx : x ∈ r.namesAlong ks
    · obtain ⟨k, behind, hk⟩ := ih hx
      exact ⟨k, behind, declaredLast_cons_iff.mpr (.inl hk)⟩
    · obtain ⟨e, he, hxe⟩ := mem_namesAlong.mp h
      rcases List.mem_cons.mp he with rfl | he
      · exact ⟨e, ks, declaredLast_cons_iff.mpr (.inr ⟨hx, hxe, rfl, rfl⟩)⟩
      · exact absurd (mem_namesAlong.mpr ⟨e, he, hxe⟩) hx

/-- One field comes before another as far as the classes of an order tell: the last class that
declares it lies after the last one that declares the other, or they are the same class and the
field was declared first there. -/
def Precedes (r : Registry) (order : List ClassRef) (x y : String) : Prop :=
  ∃ k behind l further, r.DeclaredLast order x k behind ∧ r.DeclaredLast order y l further ∧
    (behind.length < further.length ∨
      behind = further ∧ (r.ownNames k).idxOf x < (r.ownNames k).idxOf y)

/-- Leaving out some elements of a list does not change which of the others comes first. -/
private theorem idxOf_filter_lt_iff {l : List String} {p : String → Bool} (hx : p x) (hy : p y) :
    (l.filter p).idxOf x < (l.filter p).idxOf y ↔ l.idxOf x < l.idxOf y := by
  induction l with
  | nil => rfl
  | cons z l ih =>
    by_cases hz : p z
    · rw [List.filter_cons_of_pos hz]
      simp only [List.idxOf_cons]
      cases z == x <;> cases z == y <;> simp [ih]
    · have hzx : z ≠ x := fun he => hz (he ▸ hx)
      have hzy : z ≠ y := fun he => hz (he ▸ hy)
      rw [List.filter_cons_of_neg hz, ih, List.idxOf_cons_ne l hzx, List.idxOf_cons_ne l hzy]
      omega

/-- The class at the front of an order has no say in which of two fields comes first if classes
behind it declare both. -/
theorem precedes_cons_iff (hx : x ∈ r.namesAlong ks) (hy : y ∈ r.namesAlong ks) :
    r.Precedes (d :: ks) x y ↔ r.Precedes ks x y := by
  simp only [Precedes, declaredLast_cons_iff, hx, hy, not_true_eq_false, false_and, or_false]

/-- The names of the fields stand in the order that the classes tell. -/
theorem idxOf_namesAlong_lt_iff (hx : x ∈ r.namesAlong ks) (hy : y ∈ r.namesAlong ks) :
    (r.namesAlong ks).idxOf x < (r.namesAlong ks).idxOf y ↔ r.Precedes ks x y := by
  induction ks with
  | nil => cases hx
  | cons d ks ih =>
    have hfront : ∀ {z}, z ∈ r.namesAlong (d :: ks) → z ∉ r.namesAlong ks →
        r.DeclaredLast (d :: ks) z d ks := by
      intro z hz hn
      obtain ⟨k, behind, hk⟩ := exists_declaredLast hz
      rcases declaredLast_cons_iff.mp hk with hk | ⟨-, -, rfl, rfl⟩
      · exact absurd hk.mem hn
      · exact hk
    rw [namesAlong, List.idxOf_append, List.idxOf_append]
    by_cases hxs : x ∈ r.namesAlong ks <;> by_cases hys : y ∈ r.namesAlong ks
    · rw [if_pos hxs, if_pos hys, precedes_cons_iff hxs hys]
      exact ih hxs hys
    · rw [if_pos hxs, if_neg hys]
      have hlt := List.idxOf_lt_length_iff.mpr hxs
      refine iff_of_true (by omega) ?_
      obtain ⟨k, behind, hk⟩ := exists_declaredLast hxs
      exact ⟨k, behind, d, ks, declaredLast_cons_iff.mpr (.inl hk), hfront hy hys,
        .inl hk.length_lt⟩
    · rw [if_neg hxs, if_pos hys]
      have hlt := List.idxOf_lt_length_iff.mpr hys
      refine iff_of_false (by omega) ?_
      rintro ⟨k, behind, l, further, hk, hl, hlk⟩
      rcases declaredLast_cons_iff.mp hk with hk | ⟨-, -, rfl, rfl⟩
      · exact hxs hk.mem
      · rcases declaredLast_cons_iff.mp hl with hl | ⟨hys', -⟩
        · have := hl.length_lt
          rcases hlk with hlk | ⟨rfl, -⟩ <;> omega
        · exact hys' hys
    · rw [if_neg hxs, if_neg hys, Nat.add_lt_add_iff_right,
        idxOf_filter_lt_iff (by simpa using hxs) (by simpa using hys)]
      constructor
      · intro hlt
        exact ⟨d, ks, d, ks, hfront hx hxs, hfront hy hys, .inr ⟨rfl, hlt⟩⟩
      · rintro ⟨k, behind, l, further, hk, hl, hlk⟩
        rcases declaredLast_cons_iff.mp hk with hk | ⟨-, -, rfl, rfl⟩
        · exact absurd hk.mem hxs
        rcases declaredLast_cons_iff.mp hl with hl | ⟨-, -, rfl, rfl⟩
        · exact absurd hl.mem hys
        · simpa using hlk

/-! ### Declaring a field again -/

/-- A declaration adds its field to the names declared on its class, unless it is among them. -/
theorem ownNames_declare (r : Registry) (c : ClassRef) (name : String) (fragments : List Fragment)
    (declared : Option DeclaredType) (d : ClassRef) :
    (r.declare c name fragments declared).1.ownNames d = r.ownNames d ∨
      d = c ∧ name ∉ r.ownNames c ∧
        (r.declare c name fragments declared).1.ownNames d = r.ownNames d ++ [name] := by
  rcases h : r.declare c name fragments declared with ⟨q, requirement | result⟩
  · left
    rcases declare_cases r c name fragments declared with ⟨_, he⟩ | ⟨merged, hm, he⟩
    · rw [he] at h
      cases h
      exact congrArg (List.map FieldContract.name) (own_know r c d)
    · rw [he] at h
      cases h
  · have hown : q.ownNames d = _ := congrArg (List.map FieldContract.name) (own_declare_ok h d)
    rw [hown, ContractChange.effect]
    by_cases hd : c = d
    · subst hd
      rw [if_pos rfl, Declaration.putInto, map_name_putContract]
      have hname : ((⟨c, name, fragments, declared⟩ : Declaration).mergeInto
          (((r.own c).find? fun f => f.name == name).getD (.empty name))).name = name :=
        (FieldContract.name_foldl_merge _ _).trans (FieldContract.name_getD_find? _ _)
      rw [hname]
      split
      · exact .inl rfl
      · next hn => exact .inr ⟨rfl, hn, rfl⟩
    · rw [if_neg hd]
      exact .inl rfl

/-- After a declaration every field of a class still has one contract. -/
theorem Distinct.declare (hr : r.Distinct) (c : ClassRef) (name : String)
    (fragments : List Fragment) (declared : Option DeclaredType) :
    (r.declare c name fragments declared).1.Distinct := by
  intro d
  have hd : (r.ownNames d).Nodup := hr d
  change ((r.declare c name fragments declared).1.ownNames d).Nodup
  rcases ownNames_declare r c name fragments declared d with ho | ⟨rfl, hn, ho⟩
  · rw [ho]
    exact hd
  · rw [ho]
    exact List.nodup_append.mpr ⟨hd, List.pairwise_singleton _ _,
      fun a ha b hb he => hn (List.mem_singleton.mp hb ▸ he ▸ ha)⟩

/-- A declaration leaves the names along an order as they are if wherever its class stands in the
order, that class or one behind it declares the field already. -/
theorem namesAlong_declare (fragments : List Fragment) (declared : Option DeclaredType)
    (h : ∀ front behind, ks = front ++ c :: behind → ∃ e ∈ c :: behind, x ∈ r.ownNames e) :
    (r.declare c x fragments declared).1.namesAlong ks = r.namesAlong ks := by
  induction ks with
  | nil => rfl
  | cons d ks ih =>
    have hks := ih fun front behind hk => h (d :: front) behind (by rw [hk]; rfl)
    rw [namesAlong, namesAlong, hks]
    rcases ownNames_declare r c x fragments declared d with hd | ⟨rfl, hn, hd⟩
    · rw [hd]
    · obtain ⟨e, he, hx⟩ := h [] ks rfl
      have hmem : x ∈ r.namesAlong ks := by
        rcases List.mem_cons.mp he with rfl | he
        · exact absurd hx hn
        · exact mem_namesAlong.mpr ⟨e, he, hx⟩
      rw [hd, List.filter_append, List.filter_cons_of_neg (by simpa using hmem), List.filter_nil,
        List.append_nil]

/-- The contract of a field is that of the first class on which the field is declared. -/
theorem exists_first_of_mem_fields (hr : r.Distinct) {f : FieldContract} (hf : f ∈ r.fields t c) :
    ∃ front k behind, t.order c = front ++ k :: behind ∧ f ∈ r.own k ∧
      ∀ d ∈ front, f.name ∉ r.ownNames d := by
  have hfield := field?_of_mem hf
  rw [field?_eq_findSome? hr, List.findSome?_eq_some_iff] at hfield
  obtain ⟨front, k, behind, ho, hk, hfront⟩ := hfield
  refine ⟨front, k, behind, ho, List.mem_of_find?_eq_some hk, fun d hd hm => ?_⟩
  obtain ⟨g, hg, hname⟩ := List.mem_map.mp hm
  have hnone := List.find?_eq_none.mp (hfront d hd) g hg
  exact hnone (by simpa using hname)

end Registry

namespace Session

/-- The fields of a class are those declared on the classes of its order, each once. The contract of
a field is that of the first class that declares it, and the fields stand in the order of the last
classes that declare them. So a declaration on a class, for a field that this class or one behind it
in the order declares already, leaves the names and their order as they are. -/
theorem Reachable.resolves_fields {s : Session} (h : s.Reachable) (i : Nat) (c : ClassRef) :
    let r := s.world.registry i
    let order := s.world.classes.order c
    ∃ fs, (s.step (.fields i (.cls c))).1 = .ok (.contracts fs) ∧
      let names := fs.map FieldContract.name
      (s.step (.fieldNames i (.cls c))).1 = .ok (.names names) ∧
        names.Nodup ∧
        (∀ x, x ∈ names ↔ ∃ k ∈ order, x ∈ r.ownNames k) ∧
        (∀ f ∈ fs, ∃ front k behind, order = front ++ k :: behind ∧ f ∈ r.own k ∧
          ∀ d ∈ front, f.name ∉ r.ownNames d) ∧
        (∀ x ∈ names, ∀ y ∈ names, names.idxOf x < names.idxOf y ↔ r.Precedes order x y) ∧
        ∀ d x fragments declared,
          (∀ front behind, order = front ++ d :: behind → ∃ e ∈ d :: behind, x ∈ r.ownNames e) →
          (r.declare d x fragments declared).1.fieldNames s.world.classes c = names := by
  intro r order
  have hr : r.Distinct := h.distinct i
  have hnames : (r.fields s.world.classes c).map FieldContract.name = r.namesAlong order :=
    Registry.fieldNames_eq_namesAlong hr s.world.classes c
  refine ⟨r.fields s.world.classes c, rfl, rfl, Registry.nodup_fields .., fun x => ?_,
    fun f hf => Registry.exists_first_of_mem_fields hr hf, ?_, fun d x fragments declared hd => ?_⟩
  · rw [hnames]
    exact Registry.mem_namesAlong
  · rw [hnames]
    intro x hx y hy
    exact Registry.idxOf_namesAlong_lt_iff hx hy
  · rw [hnames, Registry.fieldNames_eq_namesAlong (hr.declare d x fragments declared)]
    exact Registry.namesAlong_declare fragments declared hd

/-- A class with two fields, which gets a third one later. -/
def shape : ClassRef := ⟨5, "Shape", true⟩

/-- A class that inherits from `shape` and declares its second field again, and one of its own. -/
def filled : ClassRef := ⟨6, "Filled", true⟩

/-- A class that inherits from `shape` and declares its first field again, and one of its own. -/
def framed : ClassRef := ⟨7, "Framed", true⟩

/-- A class that inherits from `filled` and from `framed`. -/
def tile : ClassRef := ⟨8, "Tile", true⟩

/-- The operations that create these classes; the last one declares a field on `shape` that `tile`
has declared already. -/
def tileOps : List Operation :=
  let given (rules : List Fragment) : FieldDeclaration := ⟨.basic .int, rules⟩
  [.newClass "Shape" [.schemaBase] none [("x", given []), ("y", given [])],
    .newClass "Filled" [shape] none [("colour", given []), ("y", given [.integer])],
    .newClass "Framed" [shape] none [("x", given [.passthrough]), ("width", given [])],
    .newClass "Tile" [filled, framed] none [("depth", given []), ("name", given [])],
    .declare 0 (.cls shape) (.str "depth") [.fragment (.requirement .required)] none]

/-- The session in which these classes have been created. -/
def tiles : Session := initial.after tileOps

/-- A class that inherits a field along two ways has it once, where the base has it. A field that
the base gets later comes before those of the classes between them, with the contract that the class
has for it, and to declare an inherited field once more moves nothing. -/
theorem tile_fields_resolved :
    tiles.Reachable ∧
      ∃ fs, (tiles.step (.fields 0 (.cls tile))).1 = .ok (.contracts fs) ∧
        fs.map FieldContract.name = ["x", "y", "depth", "width", "colour", "name"] ∧
        (tiles.world.registry 0).Precedes (tiles.world.classes.order tile) "depth" "width" ∧
        ¬ (tiles.world.registry 0).Precedes (tiles.world.classes.order tile) "colour" "width" ∧
        (∃ f ∈ fs, f.name = "depth" ∧ f ∈ (tiles.world.registry 0).own tile) ∧
        ((tiles.world.registry 0).declare tile "width" [.integer] none).1.fieldNames
          tiles.world.classes tile = fs.map FieldContract.name := by
  have hr : tiles.Reachable := reachable_after .initial tileOps
  obtain ⟨fs, hfs, hnames, -, -, hfirst, horder, hagain⟩ := hr.resolves_fields 0 tile
  have hlist : fs.map FieldContract.name = ["x", "y", "depth", "width", "colour", "name"] := by
    have hd : (tiles.world.registry 0).fieldNames tiles.world.classes tile =
        ["x", "y", "depth", "width", "colour", "name"] := by decide +kernel
    cases hfs
    exact hd
  rw [hlist] at horder
  have htile : tiles.world.classes.order tile =
      [tile, filled, framed, shape, .schemaBase, .object] := by decide +kernel
  refine ⟨hr, fs, hfs, hlist, ?_, ?_, ?_, ?_⟩
  · exact (horder "depth" (by decide) "width" (by decide)).mp (by decide)
  · exact mt (horder "colour" (by decide) "width" (by decide)).mpr (by decide)
  · obtain ⟨f, hf, hname⟩ : ∃ f ∈ fs, f.name = "depth" := by
      rw [← List.mem_map, hlist]
      decide
    obtain ⟨front, k, behind, ho, hk, hfront⟩ := hfirst f hf
    rw [htile] at ho
    -- `tile` declares the field itself, so no class comes before the first that does
    cases front with
    | nil =>
      obtain ⟨rfl, -⟩ := List.cons_eq_cons.mp ho
      exact ⟨f, hf, hname, hk⟩
    | cons d front =>
      obtain ⟨rfl, -⟩ := List.cons_eq_cons.mp ho
      have hown : "depth" ∈ (tiles.world.registry 0).ownNames tile := by decide +kernel
      exact absurd (hname ▸ hown) (hfront tile (List.mem_cons_self ..))
  · refine hagain tile "width" [.integer] none fun front behind ho => ?_
    have hframed : "width" ∈ (tiles.world.registry 0).ownNames framed := by decide +kernel
    rw [htile] at ho
    cases front with
    | nil =>
      obtain ⟨-, rfl⟩ := List.cons_eq_cons.mp ho
      exact ⟨framed, by decide, hframed⟩
    | cons d front =>
      obtain ⟨-, ho⟩ := List.cons_eq_cons.mp ho
      have hmem : tile ∈ [filled, framed, shape, .schemaBase, .object] := by simp [ho]
      exact absurd hmem (by decide)

end Session

end SchemaBinding
