import ConsoleScript.Token.Rule

/-!
# Rule sets

The rules of a language in the order in which they are tried: comments first, then longer keys
before shorter ones, so that `==` is never read as two `=`, and last the rules without a key. Rules
whose keys are equally long keep the order in which they were given.
-/

namespace ConsoleScript

structure CommentStyle where
  line : Option String
  block : Option (String × String)

namespace CommentStyle

def slashes : CommentStyle :=
  ⟨some "//", some ("/*", "*/")⟩

def disabled : CommentStyle :=
  ⟨none, none⟩

def rules {κ : Type} (style : CommentStyle) : List (Rule κ) :=
  (style.line.map Rule.lineComment).toList ++
    (style.block.map fun (opening, closing) => Rule.blockComment opening closing).toList

end CommentStyle

structure RuleSet (κ : Type) where
  rules : List (Rule κ)

namespace RuleSet

variable {κ : Type}

/-- Puts a rule before all that have no longer key than it. -/
def insertByKey (r : Rule κ) : List (Rule κ) → List (Rule κ)
  | [] => [r]
  | s :: rest => if s.keyLength ≤ r.keyLength then r :: s :: rest else s :: insertByKey r rest

def orderByKey (rules : List (Rule κ)) : List (Rule κ) :=
  rules.foldr insertByKey []

def ofRules (rules : List (Rule κ)) (comments : CommentStyle) : RuleSet κ :=
  ⟨comments.rules ++ orderByKey rules⟩

/-- The rule that is tried at a place: the first that applies there. -/
def select (set : RuleSet κ) (c : Cursor) : Option (Rule κ) :=
  set.rules.find? (·.applies c)

theorem insertByKey_perm (r : Rule κ) (rules : List (Rule κ)) :
    (insertByKey r rules).Perm (r :: rules) := by
  induction rules with
  | nil => exact .refl _
  | cons s rest ih =>
    rw [insertByKey]
    split
    · exact .refl _
    · exact (ih.cons s).trans (.swap r s rest)

theorem orderByKey_perm (rules : List (Rule κ)) : (orderByKey rules).Perm rules := by
  induction rules with
  | nil => exact .refl _
  | cons r rules ih => exact (insertByKey_perm r (orderByKey rules)).trans (ih.cons r)

theorem pairwise_insertByKey {r : Rule κ} {rules : List (Rule κ)}
    (h : rules.Pairwise fun a b => b.keyLength ≤ a.keyLength) :
    (insertByKey r rules).Pairwise fun a b => b.keyLength ≤ a.keyLength := by
  induction rules with
  | nil => exact List.pairwise_singleton _ _
  | cons s rest ih =>
    rw [insertByKey]
    obtain ⟨hs, hrest⟩ := List.pairwise_cons.1 h
    split
    · next hle =>
      refine List.pairwise_cons.2 ⟨fun b hb => ?_, h⟩
      rcases List.mem_cons.1 hb with rfl | hb
      · exact hle
      · exact Nat.le_trans (hs b hb) hle
    · next hlt =>
      refine List.pairwise_cons.2 ⟨fun b hb => ?_, ih hrest⟩
      rcases List.mem_cons.1 ((insertByKey_perm r rest).mem_iff.1 hb) with rfl | hb
      · exact Nat.le_of_not_le hlt
      · exact hs b hb

theorem pairwise_orderByKey (rules : List (Rule κ)) :
    (orderByKey rules).Pairwise fun a b => b.keyLength ≤ a.keyLength := by
  induction rules with
  | nil => exact .nil
  | cons r rules ih => exact pairwise_insertByKey ih

end RuleSet

end ConsoleScript
