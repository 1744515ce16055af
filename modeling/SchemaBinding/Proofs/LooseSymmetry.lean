import SchemaBinding.Proofs.EqualValues

/-!
# Loose equality is symmetric

Loose equality gives the same answer, or fails in the same way, whichever of two values stands on
the left. That is why a union of one member, which compares the member with the value, decides like
an equality check, which compares the value with the member, and opposite to an inequality check.
-/

namespace SchemaBinding

/-! ### Both ways round -/

private theorem Double.same_comm (x y : Double) : x.same y = y.same x := by
  rw [Bool.eq_iff_iff, same_iff, same_iff]
  exact exists_congr fun p => and_comm

private theorem sameLoose_comm (a b : Option Double) : sameLoose a b = sameLoose b a := by
  cases a with
  | none => cases b <;> rfl
  | some x =>
    cases b with
    | none => rfl
    | some y => exact x.same_comm y

/-- A value cannot be read as a number for one reason only. -/
theorem looseNumber_error_eq {v : Value} {f : Fault} (h : looseNumber v = .error f) :
    f = .overflow .double := by
  cases v with
  | int i =>
    rw [looseNumber_int] at h
    generalize Double.ofInt? i = found at h
    cases found with
    | some x => cases h
    | none => exact (Except.error.inj h).symm
  | _ => cases h

/-- Reading the values as numbers in either order gives the same answer. -/
theorem sameLoose_read_comm (v w : Value) :
    (do
      let a ← looseNumber v
      let b ← looseNumber w
      return sameLoose a b) = do
      let b ← looseNumber w
      let a ← looseNumber v
      return sameLoose b a := by
  cases hv : looseNumber v with
  | error f =>
    cases hw : looseNumber w with
    | error g =>
      rw [looseNumber_error_eq hv, looseNumber_error_eq hw]
    | ok b => rfl
  | ok a =>
    cases hw : looseNumber w with
    | error g => rfl
    | ok b => exact congrArg Except.ok (sameLoose_comm a b)

/-- Loose equality of values for which equality is symmetric is so, too. -/
theorem looseEq_comm_of_eq {v w : Value} (h : v.eq w = w.eq v) : looseEq v w = looseEq w v := by
  unfold looseEq
  rw [h]
  refine if_congr Iff.rfl rfl ?_
  split
  · rfl
  · next hne =>
    split
    · next s t => exact (hne t s rfl rfl).elim
    · exact sameLoose_read_comm v w

/-- Two values cannot be compared loosely for one reason only. -/
theorem looseEq_error_eq {v w : Value} {f : Fault} (h : looseEq v w = .error f) :
    f = .overflow .double := by
  unfold looseEq at h
  split at h
  · cases h
  · split at h
    · cases h
    · cases hv : looseNumber v with
      | error g =>
        rw [hv] at h
        cases h
        exact looseNumber_error_eq hv
      | ok a =>
        cases hw : looseNumber w with
        | error g =>
          rw [hv, hw] at h
          cases h
          exact looseNumber_error_eq hw
        | ok b =>
          rw [hv, hw] at h
          cases h

/-! ### Verdicts -/

/-- The answer of a check: its condition holds, or does not, or cannot be told. -/
def verdict (refusal : BindingError) : Except Fault Bool → Except Fault Unit
  | .ok true => .ok ()
  | .ok false => .error (.ofBinding refusal)
  | .error f => .error f

private theorem verdict_ok_iff {refusal : BindingError} {e : Except Fault Bool} :
    verdict refusal e = .ok () ↔ e = .ok true := by
  cases e with
  | error f => exact iff_of_false nofun nofun
  | ok b => cases b <;> simp [verdict]

/-- A check refuses a value if its condition does not hold, and only then: not being able to tell is
no refusal. -/
theorem verdict_refusal_iff {refusal : BindingError} {e : Except Fault Bool}
    (h : ∀ f, e = .error f → f = .overflow .double) :
    verdict refusal e = .error (.ofBinding refusal) ↔ e = .ok false := by
  cases e with
  | error f =>
    cases h f rfl
    refine iff_of_false (fun he => ?_) nofun
    have hb := Except.error.inj he
    unfold Fault.ofBinding at hb
    split at hb <;> cases hb
  | ok b => cases b <;> simp [verdict]

/-- A field that may take the values of a list gives an answer to a value. -/
def UnionAnswers (members : List Value) (typeName field : String) (value : Value)
    (answer : Except Fault Unit) : Prop :=
  ∃ u, Fragment.unionOf (.list members none) = .ok (.union u) ∧
    checkUnion typeName field u.values value = answer

/-- A field under a relation to a bound gives an answer to a value. -/
def Relation.Answers (relation : Relation) (bound : Value) (typeName field : String)
    (value : Value) (answer : Except Fault Unit) : Prop :=
  ∃ c, Comparison.of relation bound = .ok c ∧ c.check typeName field value = answer

section Checks

variable {m v : Value} {typeName field : String} {answer : Except Fault Unit}

/-- A union of one member goes by whether the member loosely equals the value. -/
theorem unionAnswers_singleton_iff :
    UnionAnswers [m] typeName field v answer ↔
      verdict ⟨typeName, field, .notInUnion [m] v⟩ (looseEq m v) = answer := by
  have hu : checkUnion typeName field [m] v =
      verdict ⟨typeName, field, .notInUnion [m] v⟩ (looseEq m v) := by
    rw [checkUnion, isMember]
    cases looseEq m v with
    | error f => rfl
    | ok b => cases b <;> rfl
  rw [← hu]
  constructor
  · rintro ⟨u, h, hc⟩
    cases h
    exact hc
  · exact fun h => ⟨⟨[m], List.cons_ne_nil m []⟩, rfl, h⟩

/-- A check that asks for no number goes by its relation alone. -/
theorem Relation.answers_iff_verdict {relation : Relation}
    (hn : relation.isNumeric = true → m.isNumber = true) (hr : relation.isNumeric = false) :
    relation.Answers m typeName field v answer ↔
      verdict ⟨typeName, field, .comparison relation m v⟩
        (Comparison.holds ⟨relation, m, hn⟩ v) = answer := by
  have hof : Comparison.of relation m = .ok ⟨relation, m, hn⟩ := dif_pos _
  have hc : Comparison.check ⟨relation, m, hn⟩ typeName field v =
      verdict ⟨typeName, field, .comparison relation m v⟩
        (Comparison.holds ⟨relation, m, hn⟩ v) := by
    unfold Comparison.check
    dsimp only
    rw [hr, if_neg Bool.false_ne_true]
    cases Comparison.holds ⟨relation, m, hn⟩ v with
    | error f => rfl
    | ok b => cases b <;> rfl
  rw [← hc]
  constructor
  · rintro ⟨c, h, ha⟩
    cases hof.symm.trans h
    exact ha
  · exact fun h => ⟨_, hof, h⟩

/-- An equality check goes by whether the value loosely equals the bound. -/
theorem answers_equal_iff :
    Relation.equal.Answers m typeName field v answer ↔
      verdict ⟨typeName, field, .comparison .equal m v⟩ (looseEq v m) = answer :=
  Relation.answers_iff_verdict (fun h => Bool.noConfusion h) rfl

private theorem answers_notEqual_iff :
    Relation.notEqual.Answers m typeName field v answer ↔
      verdict ⟨typeName, field, .comparison .notEqual m v⟩ ((looseEq v m).map (! ·)) = answer :=
  Relation.answers_iff_verdict (fun h => Bool.noConfusion h) rfl

/-- An inequality check refuses exactly the values that are loosely equal to the bound. -/
theorem answers_notEqual_refusal_iff :
    Relation.notEqual.Answers m typeName field v
        (.error (.ofBinding ⟨typeName, field, .comparison .notEqual m v⟩)) ↔
      looseEq v m = .ok true := by
  have herror : ∀ f, (looseEq v m).map (! ·) = .error f → f = .overflow .double :=
    fun f hf => looseEq_error_eq (eq_error_of_map hf)
  rw [answers_notEqual_iff, verdict_refusal_iff herror]
  cases looseEq v m with
  | error g => exact iff_of_false nofun nofun
  | ok b => cases b <;> simp [Except.map]

end Checks

/-- Whether two well-keyed values are loosely equal does not depend on which one stands on the left,
and neither does the fault if it cannot be told. Therefore a union of one member accepts a value
exactly if the equality check with that member does, and exactly if the inequality check refuses the
value, whether or not the words of that refusal can be written. If it cannot be told, none of them
decides: all fail with the same fault. -/
theorem looseEq_symmetric {m v : Value} (hm : m.WellKeyed) (hv : v.WellKeyed)
    (typeName field : String) :
    looseEq m v = looseEq v m ∧
    (UnionAnswers [m] typeName field v (.ok ()) ↔
      Relation.equal.Answers m typeName field v (.ok ())) ∧
    (UnionAnswers [m] typeName field v (.ok ()) ↔
      Relation.notEqual.Answers m typeName field v
        (.error (.ofBinding ⟨typeName, field, .comparison .notEqual m v⟩))) ∧
    (∀ fault, looseEq m v = .error fault →
      UnionAnswers [m] typeName field v (.error fault) ∧
      Relation.equal.Answers m typeName field v (.error fault) ∧
      Relation.notEqual.Answers m typeName field v (.error fault)) := by
  have hcomm := looseEq_comm_of_eq (hm.eq_comm hv)
  rw [answers_notEqual_refusal_iff, unionAnswers_singleton_iff, answers_equal_iff, verdict_ok_iff,
    verdict_ok_iff, hcomm]
  refine ⟨rfl, Iff.rfl, Iff.rfl, fun fault hf => ?_⟩
  rw [unionAnswers_singleton_iff, answers_equal_iff, answers_notEqual_iff, hcomm, hf]
  exact ⟨rfl, rfl, rfl⟩

/-- A class of rates. -/
def rate : ClassRef := ⟨5, "Rate", true⟩

/-- Terms with a rate that has no highest value. -/
def openTerms : Value := .dict [
  (.str "rates", .list [.record rate [("low", .int 1), ("high", .float (.nan (some 0)))]] none),
  (.int 0, .null)]

/-- The same terms, with false for zero, in another order and with another type of number. -/
def restatedTerms : Value := .dict [
  (.bool false, .null),
  (.str "rates",
    .list [.record rate [("high", .float (.nan (some 0))), ("low", .float .one)]] none)]

/-- A union of the terms accepts them however they are stated. -/
theorem restatedTerms_accepted :
    openTerms.WellKeyed ∧ restatedTerms.WellKeyed ∧
    looseEq openTerms restatedTerms = looseEq restatedTerms openTerms ∧
    UnionAnswers [openTerms] "Quote" "terms" restatedTerms (.ok ()) ∧
    Relation.equal.Answers openTerms "Quote" "terms" restatedTerms (.ok ()) ∧
    Relation.notEqual.Answers openTerms "Quote" "terms" restatedTerms
      (.error (.binding ⟨"Quote", "terms", .comparison .notEqual openTerms restatedTerms⟩)) := by
  have hplain : ∀ {v : Value}, v.parts = [] → v.Distinct → v.WellKeyed := .of_parts_eq_nil
  have hempty : (Value.dict []).WellKeyed := hplain rfl .nil
  have hunset : (Value.record rate []).WellKeyed := hplain rfl .nil
  have hrates : ∀ {r : Value}, r.WellKeyed → (Value.list [r] none).WellKeyed := fun hr =>
    .list (List.forall_mem_singleton.mpr hr) none
  have hopen : openTerms.WellKeyed := by
    have hlow := hunset.setAttr "low" (hplain (v := .int 1) rfl trivial)
    have hrate := hlow.setAttr "high" (hplain (v := .float (.nan (some 0))) rfl trivial)
    exact (hempty.setEntry (.str "rates") _ (hplain rfl trivial) (hrates hrate)).setEntry
      (.int 0) .null (hplain rfl trivial) (hplain rfl trivial)
  have hrestated : restatedTerms.WellKeyed := by
    have hhigh := hunset.setAttr "high" (hplain (v := .float (.nan (some 0))) rfl trivial)
    have hrate := hhigh.setAttr "low" (hplain (v := .float .one) rfl trivial)
    exact (hempty.setEntry (.bool false) .null (hplain rfl trivial) (hplain rfl trivial)).setEntry
      (.str "rates") _ (hplain rfl trivial) (hrates hrate)
  obtain ⟨hcomm, hequal, hnotEqual, -⟩ := looseEq_symmetric hopen hrestated "Quote" "terms"
  have heq : looseEq openTerms restatedTerms = .ok true := by
    unfold looseEq
    rw [if_pos (by decide +kernel)]
  have hunion : UnionAnswers [openTerms] "Quote" "terms" restatedTerms (.ok ()) :=
    unionAnswers_singleton_iff.mpr (verdict_ok_iff.mpr heq)
  have hrefused := hnotEqual.mp hunion
  rw [Fault.ofBinding, if_pos (by decide +kernel)] at hrefused
  exact ⟨hopen, hrestated, hcomm, hunion, hequal.mp hunion, hrefused⟩

end SchemaBinding
