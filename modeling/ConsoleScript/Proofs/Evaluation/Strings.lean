import ConsoleScript.Proofs.Evaluation.Evolution

/-!
# Strings and where they come from

The strings of values, trees, scopes and registries. The operators make no string that is longer
than the limit. What is stored in a variable, bound to a parameter, returned from a call or
registered with a function brings no string with it that was not there before.
-/

namespace ConsoleScript

/-! ### The strings that are there -/

def Value.strings : Value → List String
  | .string text => [text]
  | _ => []

mutual

/-- The strings that a tree spells, also in the bodies of the functions that it defines. -/
def Node.strings : Node → List String
  | .literal value _ => value.strings
  | .variable _ _ | .noOp _ => []
  | .negation operand _ => operand.strings
  | .binary left _ right _ => left.strings ++ right.strings
  | .assignment target value _ => target.strings ++ value.strings
  | .declaration _ _ initializer _ => optionStrings initializer
  | .block statements _ => listStrings statements
  | .branch condition thenBody elseBody _ =>
    condition.strings ++ thenBody.strings ++ optionStrings elseBody
  | .loop count body _ => count.strings ++ body.strings
  | .print expr _ | .typeOf expr _ | .returning expr _ => expr.strings
  | .function _ _ _ body _ => body.strings
  | .call _ arguments _ => listStrings arguments

def optionStrings : Option Node → List String
  | none => []
  | some n => n.strings

def listStrings : List Node → List String
  | [] => []
  | n :: nodes => n.strings ++ listStrings nodes

end

def FunctionBody.strings : FunctionBody → List String
  | .native _ => []
  | .user _ body => body.strings

def Scope.strings (s : Scope) : List String :=
  s.bindings.flatMap fun binding => binding.2.value.strings

def Registry.strings (r : Registry) : List String :=
  r.entries.flatMap fun entry => entry.body.strings

def State.strings (s : State) : List String :=
  s.scope.strings ++ s.registry.strings

def Operation.strings : Operation → List String
  | .eval n | .unit n => n.strings
  | .clearErrors | .reportErrors => []

/-- The size of the largest of these strings, or the limit if that is larger. -/
def sizeBound (texts : List String) : Nat :=
  (texts.map String.utf8ByteSize).foldr max stringLimit

/-- None of the strings is larger than `m` bytes. -/
def SizesWithin (m : Nat) (texts : List String) : Prop :=
  ∀ text ∈ texts, text.utf8ByteSize ≤ m

section Sizes

variable {m : Nat} {texts texts' : List String}

theorem sizesWithin_nil : SizesWithin m [] :=
  List.forall_mem_nil _

@[simp] theorem sizesWithin_append :
    SizesWithin m (texts ++ texts') ↔ SizesWithin m texts ∧ SizesWithin m texts' :=
  List.forall_mem_append

theorem SizesWithin.subset (h : SizesWithin m texts) (hsub : texts' ⊆ texts) :
    SizesWithin m texts' :=
  fun text htext => h text (hsub htext)

theorem stringLimit_le_sizeBound (texts : List String) : stringLimit ≤ sizeBound texts := by
  induction texts with
  | nil => exact Nat.le_refl _
  | cons text texts ih => exact Nat.le_trans ih (Nat.le_max_right _ _)

theorem sizesWithin_sizeBound (texts : List String) : SizesWithin (sizeBound texts) texts := by
  induction texts with
  | nil => exact sizesWithin_nil
  | cons text texts ih =>
    intro other hother
    rcases List.mem_cons.mp hother with rfl | hother
    · exact Nat.le_max_left _ _
    · exact Nat.le_trans (ih other hother) (Nat.le_max_right _ _)

end Sizes

/-! ### What the operators make -/

theorem utf8ByteSize_repeatOnto (done text : String) (count : Nat) :
    (repeatOnto done text count).utf8ByteSize =
      done.utf8ByteSize + text.utf8ByteSize * count := by
  induction count generalizing done with
  | zero => rfl
  | succ count ih =>
    rw [repeatOnto, ih, String.utf8ByteSize_append, Nat.mul_succ]
    omega

theorem utf8ByteSize_repeatText (text : String) (count : Nat) :
    (repeatText text count).utf8ByteSize = text.utf8ByteSize * count := by
  unfold repeatText
  split
  · next hempty =>
    have htext : text = "" := String.isEmpty_iff.mp hempty
    rw [htext]
    simp
  · rw [utf8ByteSize_repeatOnto]
    simp

namespace Builtin

theorem arithmetic_strings {exact : Int → Int → Int} {rounded : Float → Float → Float}
    {left right value : Value} {line : Nat}
    (h : arithmetic exact rounded left right line = .ok value) : value.strings = [] := by
  unfold arithmetic at h
  split at h
  · split at h <;> cases h
    rfl
  · cases h
    rfl
  · obtain ⟨x, _, hx⟩ := bind_eq_ok.mp h
    cases hx
    rfl
  · obtain ⟨x, _, hx⟩ := bind_eq_ok.mp h
    cases hx
    rfl
  · cases h

theorem join_within {left right value : Value} {line : Nat}
    (h : join left right line = .ok value) : SizesWithin stringLimit value.strings := by
  unfold join checked at h
  split at h
  · split at h
    · cases h
    · next hsize =>
      cases h
      intro text htext
      rw [List.mem_singleton.mp htext]
      omega
  · cases h

theorem repetition_within {left right value : Value} {line : Nat}
    (h : repetition left right line = .ok value) : SizesWithin stringLimit value.strings := by
  unfold repetition at h
  split at h
  · dsimp only at h
    split at h
    · cases h
    · next hsize =>
      cases h
      intro text htext
      rw [stringLimit_lt_repeatedLength] at hsize
      rw [List.mem_singleton.mp htext, utf8ByteSize_repeatText]
      omega
  · cases h
  · cases h

theorem apply_within {f : Builtin} {args : List Value} {line : Nat} {value : Value}
    (h : f.apply args line = .ok value) : SizesWithin stringLimit value.strings := by
  cases f with
  | add | subtract | multiply =>
    obtain ⟨operands, _, hvalue⟩ := bind_eq_ok.mp h
    rw [arithmetic_strings hvalue]
    exact sizesWithin_nil
  | divide =>
    obtain ⟨operands, _, hvalue⟩ := bind_eq_ok.mp h
    dsimp only at hvalue
    split at hvalue
    · cases hvalue
    · rw [arithmetic_strings hvalue]
      exact sizesWithin_nil
  | concatenate =>
    obtain ⟨operands, _, hvalue⟩ := bind_eq_ok.mp h
    exact join_within hvalue
  | «repeat» =>
    obtain ⟨operands, _, hvalue⟩ := bind_eq_ok.mp h
    exact repetition_within hvalue
  | negate =>
    unfold apply at h
    dsimp only at h
    split at h
    · split at h <;> cases h
      exact sizesWithin_nil
    · cases h
      exact sizesWithin_nil
    · cases h

end Builtin

theorem ValueType.size_name (type : ValueType) : type.name.utf8ByteSize ≤ stringLimit := by
  cases type <;> decide

/-! ### What is stored -/

theorem fit_strings {type : ValueType} {value fitted : Value} {line : Nat}
    (h : type.fit value line = .ok (some fitted)) : fitted.strings ⊆ value.strings := by
  unfold ValueType.fit at h
  split at h
  · cases h
    exact List.Subset.refl _
  split at h
  · cases h
  · split at h
    · obtain ⟨x, _, hx⟩ := bind_eq_ok.mp h
      cases hx
      exact List.nil_subset _
    · cases h
      exact List.nil_subset _
    · cases h

theorem fitDeclared_strings {type : ValueType} {value fitted : Value} {line : Nat}
    (h : type.fitDeclared value line = .ok fitted) : fitted.strings ⊆ value.strings := by
  obtain ⟨found, hfound, h⟩ := bind_eq_ok.mp h
  cases found with
  | none => cases h
  | some found =>
    cases h
    exact fit_strings hfound

/-- The strings of a value that may be missing. -/
def resultStrings (value : Option Value) : List String :=
  value.toList.flatMap Value.strings

theorem resultStrings_some (value : Value) : resultStrings (some value) = value.strings := by
  simp [resultStrings]

theorem initial_strings {name : String} {type : Option ValueType} {value : Option Value}
    {line : Nat} {v : Variable} (h : Variable.initial name type value line = .ok v) :
    v.value.strings ⊆ resultStrings value := by
  unfold Variable.initial at h
  split at h
  · cases h
    exact List.nil_subset _
  · obtain ⟨fitted, hfit, hv⟩ := bind_eq_ok.mp h
    cases hv
    rw [resultStrings_some]
    exact fitDeclared_strings hfit
  · cases h
  · cases h
  · cases h
    rw [resultStrings_some]
    exact List.Subset.refl _

theorem returned_strings {entry : Overload} {result : Option Value} {line : Nat} {value : Value}
    (h : entry.returned result line = .ok value) : value.strings ⊆ resultStrings result := by
  unfold Overload.returned at h
  split at h
  · cases h
    exact List.nil_subset _
  · split at h
    · cases h
      exact List.nil_subset _
    · obtain ⟨found, hfound, h⟩ := bind_eq_ok.mp h
      rw [resultStrings_some]
      cases found with
      | none => cases h
      | some found =>
        cases h
        exact fit_strings hfound

namespace Scope

theorem strings_declare {s t : Scope} {name : String} {v : Variable} {line : Nat}
    (h : s.declare name v line = .ok t) : t.strings = v.value.strings ++ s.strings := by
  unfold declare at h
  split at h
  · cases h
  · cases h
    rfl

theorem strings_find? {s : Scope} {name : String} {v : Variable} (h : s.find? name = some v) :
    v.value.strings ⊆ s.strings := by
  unfold find? at h
  obtain ⟨before, behind, hbindings, -⟩ := List.lookup_eq_some_iff.mp h
  intro text htext
  rw [strings, hbindings]
  exact List.mem_flatMap.mpr ⟨(name, v), by simp, htext⟩

theorem get_ok {s : Scope} {name : String} {line : Nat} {v : Variable}
    (h : s.get name line = .ok v) : s.find? name = some v := by
  unfold get at h
  split at h
  · cases h
    assumption
  · cases h

theorem strings_assign {s t : Scope} {name : String} {value : Value} {line : Nat}
    (h : s.assign name value line = .ok t) : t.strings ⊆ value.strings ++ s.strings := by
  unfold assign at h
  split at h
  · cases h
    intro text htext
    obtain ⟨binding, hbinding, htext⟩ := List.mem_flatMap.mp htext
    obtain ⟨⟨key, v⟩, hv, rfl⟩ := List.mem_map.mp hbinding
    dsimp only at htext
    split at htext
    · exact List.mem_append_left _ htext
    · exact List.mem_append_right _ (List.mem_flatMap.mpr ⟨(key, v), hv, htext⟩)
  · cases h

theorem strings_bind {s t : Scope} {line : Nat} {names : List String} {types : List ValueType}
    {values : List Value} (h : s.bind line names types values = .ok t) :
    t.strings ⊆ s.strings ++ values.flatMap Value.strings := by
  induction names generalizing s types values with
  | nil =>
    cases h
    exact List.subset_append_left _ _
  | cons name names ih =>
    cases types with
    | nil =>
      cases h
      exact List.subset_append_left _ _
    | cons type types =>
      cases values with
      | nil =>
        cases h
        exact List.subset_append_left _ _
      | cons value values =>
        obtain ⟨middle, hdeclare, hbind⟩ := bind_eq_ok.mp h
        have hsub := ih hbind
        rw [strings_declare hdeclare] at hsub
        refine List.Subset.trans hsub ?_
        intro text htext
        simp only [List.mem_append, List.flatMap_cons] at htext ⊢
        rcases htext with (hvalue | hs) | hvalues
        · exact .inr (.inl hvalue)
        · exact .inl hs
        · exact .inr (.inr hvalues)

end Scope

theorem Registry.strings_mem {r : Registry} {entry : Overload} (h : entry ∈ r.entries) :
    entry.body.strings ⊆ r.strings := by
  intro text htext
  exact List.mem_flatMap.mpr ⟨entry, h, htext⟩

theorem Registry.strings_register {r t : Registry} {entry : Overload} {line : Nat}
    (h : r.register entry line = .ok t) : t.strings = r.strings ++ entry.body.strings := by
  unfold strings
  rw [entries_register h, List.flatMap_append]
  simp

theorem ofDefinition_strings {name returnType : String} {params : List Parameter} {body : Node}
    {line : Nat} {entry : Overload}
    (h : Overload.ofDefinition name returnType params body line = .ok entry) :
    entry.body.strings = body.strings := by
  obtain ⟨returns, _, h⟩ := bind_eq_ok.mp h
  obtain ⟨types, _, h⟩ := bind_eq_ok.mp h
  cases h
  rfl

end ConsoleScript
