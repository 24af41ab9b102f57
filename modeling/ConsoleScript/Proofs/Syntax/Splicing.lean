import ConsoleScript.Proofs.Printing.Program
import ConsoleScript.Proofs.Syntax.Derivation

/-!
# A semicolon in place of the end

Every decision of the grammar that sees the end of the text would be the same at a semicolon. So a
derivation stays one if its tokens are put on other lines, and if the last of them, the end of the
text, gives way to a semicolon with more tokens behind it. The tree differs in its lines only.
-/

namespace ConsoleScript

def Token.relined {κ : Type} (f : Nat → Nat) (t : Token κ) : Token κ :=
  { t with line := f t.line }

theorem Node.isNoOp_unlined (n : Node) : n.unlined.isNoOp = n.isNoOp := by
  cases n <;> rfl

theorem unlinedNodes_append (ns more : List Node) :
    unlinedNodes (ns ++ more) = unlinedNodes ns ++ unlinedNodes more := by
  induction ns with
  | nil => rfl
  | cons n ns ih => simp only [List.cons_append, unlinedNodes, ih]

namespace Derivation

open Grammar (Tier literal?)

/-- The tokens before the end are put on other lines, and in place of the end there are other tokens
that begin with a semicolon, or another end. -/
inductive Respells (f : Nat → Nat) (next : Token Kind) (behind : Tokens) :
    Tokens → Tokens → Prop where
  | last {t : Token Kind} (ends : t.kind = .endOfText)
      (stops : next.kind = .semicolon ∨ next.kind = .endOfText) :
      Respells f next behind [t] (next :: behind)
  | cons {t : Token Kind} {input input' : Tokens} (ht : t.kind ≠ .endOfText)
      (more : Respells f next behind input input') :
      Respells f next behind (t :: input) (t.relined f :: input')

section

variable {f : Nat → Nat} {next : Token Kind} {behind : Tokens}

namespace Respells

theorem of_tokens {ts : Tokens} {last : Token Kind} (hts : ∀ t ∈ ts, t.kind ≠ .endOfText)
    (hlast : last.kind = .endOfText) (hnext : next.kind = .semicolon ∨ next.kind = .endOfText) :
    Respells f next behind (ts ++ [last]) (ts.map (Token.relined f) ++ next :: behind) := by
  induction ts with
  | nil => exact .last hlast hnext
  | cons t ts ih =>
    rw [List.forall_mem_cons] at hts
    exact .cons hts.1 (ih hts.2)

theorem unique {input a b : Tokens} (ha : Respells f next behind input a)
    (hb : Respells f next behind input b) : a = b := by
  induction ha generalizing b with
  | last ends =>
    cases hb with
    | last => rfl
    | cons ht => exact absurd ends ht
  | cons ht _ ih =>
    cases hb with
    | last ends => exact absurd ends ht
    | cons _ more => rw [ih more]

theorem cons_inv {t : Token Kind} {input input' : Tokens}
    (h : Respells f next behind (t :: input) input') (ht : t.kind ≠ .endOfText) :
    ∃ rest, input' = t.relined f :: rest ∧ Respells f next behind input rest := by
  cases h with
  | last ends => exact absurd ends ht
  | cons _ more => exact ⟨_, rfl, more⟩

theorem append_inv {taken input input' : Tokens}
    (h : Respells f next behind (taken ++ input) input')
    (htaken : ∀ t ∈ taken, t.kind ≠ .endOfText) :
    ∃ rest, input' = taken.map (Token.relined f) ++ rest ∧ Respells f next behind input rest := by
  induction taken generalizing input' with
  | nil => exact ⟨input', rfl, h⟩
  | cons t taken ih =>
    rw [List.forall_mem_cons] at htaken
    obtain ⟨mid, rfl, hmid⟩ := cons_inv h htaken.1
    obtain ⟨rest, rfl, hrest⟩ := ih hmid htaken.2
    exact ⟨rest, rfl, hrest⟩

theorem exists_head {t : Token Kind} {input input' : Tokens}
    (h : Respells f next behind (t :: input) input') :
    ∃ t' rest, input' = t' :: rest ∧ (t'.kind = t.kind ∨
      t.kind = .endOfText ∧ t'.kind = .semicolon) := by
  cases h with
  | last ends stops =>
    refine ⟨next, behind, rfl, ?_⟩
    rcases stops with hsemicolon | hend
    · exact .inr ⟨ends, hsemicolon⟩
    · exact .inl (hend.trans ends.symm)
  | cons => exact ⟨_, _, rfl, .inl rfl⟩

theorem head {p : Kind → Prop} {t t' : Token Kind} {input input' : Tokens}
    (h : Respells f next behind (t :: input) (t' :: input')) (hp : p .semicolon) (ht : p t.kind) :
    p t'.kind := by
  obtain ⟨_, _, heq, hkind⟩ := exists_head h
  cases heq
  rcases hkind with hsame | ⟨_, hsemicolon⟩
  · rw [hsame]
    exact ht
  · rw [hsemicolon]
    exact hp

theorem ahead {p : Kind → Prop} {input input' : Tokens} (h : Respells f next behind input input')
    (hp : p .semicolon) (ha : Ahead p input) : Ahead p input' := by
  cases input with
  | nil => cases h
  | cons t input =>
    obtain ⟨t', rest, rfl, _⟩ := exists_head h
    intro u hu
    cases hu
    exact head h hp (ha t rfl)

end Respells

/-! ### Expressions -/

mutual

theorem Expression.spliced {l : Nat} {input rest input' : Tokens} {n : Node}
    (h : Expression l input n rest) (hinput : Respells f next behind input input') :
    ∃ n' rest', n'.unlined = n.unlined ∧ Expression l input' n' rest' ∧
      Respells f next behind rest rest' := by
  match h with
  | .sum h =>
    obtain ⟨n', rest', hn, hderived, hrest⟩ := Chain.spliced h hinput
    exact ⟨n', rest', hn, .sum hderived, hrest⟩

theorem Chain.spliced {tier : Tier} {l : Nat} {input rest input' : Tokens} {n : Node}
    (h : Chain tier l input n rest) (hinput : Respells f next behind input input') :
    ∃ n' rest', n'.unlined = n.unlined ∧ Chain tier l input' n' rest' ∧
      Respells f next behind rest rest' := by
  match h with
  | .operands first more =>
    obtain ⟨left', mid', hleft, hfirst, hmid⟩ := Operand.spliced first hinput
    obtain ⟨n', rest', hn, hmore, hrest⟩ := Folds.spliced more hmid hleft
    exact ⟨n', rest', hn, .operands hfirst hmore, hrest⟩

theorem Operand.spliced {tier : Tier} {l : Nat} {input rest input' : Tokens} {n : Node}
    (h : Operand tier l input n rest) (hinput : Respells f next behind input input') :
    ∃ n' rest', n'.unlined = n.unlined ∧ Operand tier l input' n' rest' ∧
      Respells f next behind rest rest' := by
  match h with
  | .product h =>
    obtain ⟨n', rest', hn, hderived, hrest⟩ := Chain.spliced h hinput
    exact ⟨n', rest', hn, .product hderived, hrest⟩
  | .unary h =>
    obtain ⟨n', rest', hn, hderived, hrest⟩ := Unary.spliced h hinput
    exact ⟨n', rest', hn, .unary hderived, hrest⟩

theorem Folds.spliced {tier : Tier} {l : Nat} {left left' n : Node} {input rest input' : Tokens}
    (h : Folds tier l left input n rest) (hinput : Respells f next behind input input')
    (hleft : left'.unlined = left.unlined) :
    ∃ n' rest', n'.unlined = n.unlined ∧ Folds tier l left' input' n' rest' ∧
      Respells f next behind rest rest' := by
  match h with
  | .stop ahead =>
    have hstop : tier.operator? .semicolon = none := by cases tier <;> rfl
    exact ⟨left', input', hleft, .stop (hinput.ahead hstop ahead), hinput⟩
  | @Folds.fold _ _ _ _ _ t op _ _ _ operator operand more =>
    obtain ⟨input', rfl, hafter⟩ := hinput.cons_inv (operator_not_end operator)
    obtain ⟨right', mid', hright, hoperand, hmid⟩ := Operand.spliced operand hafter
    obtain ⟨n', rest', hn, hmore, hrest⟩ := Folds.spliced more hmid
      (show (Node.binary left' op right' (f t.line)).unlined = _ by
        simp only [Node.unlined, hleft, hright])
    exact ⟨n', rest', hn, .fold operator hoperand hmore, hrest⟩

theorem Unary.spliced {l : Nat} {input rest input' : Tokens} {n : Node}
    (h : Unary l input n rest) (hinput : Respells f next behind input input') :
    ∃ n' rest', n'.unlined = n.unlined ∧ Unary l input' n' rest' ∧
      Respells f next behind rest rest' := by
  match h with
  | .negation minus operand =>
    obtain ⟨input', rfl, hafter⟩ := hinput.cons_inv (by simp [minus])
    obtain ⟨n', rest', hn, hderived, hrest⟩ := Unary.spliced operand hafter
    exact ⟨_, rest', by simp only [Node.unlined, hn], .negation minus hderived, hrest⟩
  | .primary h =>
    obtain ⟨n', rest', hn, hderived, hrest⟩ := Primary.spliced h hinput
    exact ⟨n', rest', hn, .primary hderived, hrest⟩

theorem Primary.spliced {l : Nat} {input rest input' : Tokens} {n : Node}
    (h : Primary l input n rest) (hinput : Respells f next behind input input') :
    ∃ n' rest', n'.unlined = n.unlined ∧ Primary l input' n' rest' ∧
      Respells f next behind rest rest' := by
  match h with
  | .call named opens arguments =>
    obtain ⟨input', rfl, hopening⟩ := hinput.cons_inv named.not_end
    obtain ⟨input', rfl, hafter⟩ := hopening.cons_inv (by simp [opens])
    obtain ⟨args', rest', hargs, hderived, hrest⟩ := Arguments.spliced arguments hafter
    exact ⟨_, rest', by simp only [Node.unlined, hargs], .call named opens hderived, hrest⟩
  | .variable named ahead =>
    obtain ⟨rest', rfl, hrest⟩ := hinput.cons_inv named.not_end
    exact ⟨_, rest', by simp only [Node.unlined],
      .variable named (hrest.ahead (by decide) ahead), hrest⟩
  | .literal spells =>
    obtain ⟨rest', rfl, hrest⟩ := hinput.cons_inv (literal_not_end spells)
    exact ⟨_, rest', by simp only [Node.unlined], .literal spells, hrest⟩
  | .parens opens inner closes =>
    obtain ⟨input', rfl, hafter⟩ := hinput.cons_inv (by simp [opens])
    obtain ⟨n', mid', hn, hinner, hmid⟩ := Expression.spliced inner hafter
    obtain ⟨rest', rfl, hrest⟩ := hmid.cons_inv (by simp [closes])
    exact ⟨n', rest', hn, .parens opens hinner closes, hrest⟩

theorem Arguments.spliced {l : Nat} {input rest input' : Tokens} {args : List Node}
    (h : Arguments l input args rest) (hinput : Respells f next behind input input') :
    ∃ args' rest', unlinedNodes args' = unlinedNodes args ∧ Arguments l input' args' rest' ∧
      Respells f next behind rest rest' := by
  match h with
  | .none closes =>
    obtain ⟨rest', rfl, hrest⟩ := hinput.cons_inv (by simp [closes])
    exact ⟨[], rest', rfl, .none closes, hrest⟩
  | .some h =>
    obtain ⟨args', rest', hargs, hderived, hrest⟩ := ArgumentList.spliced h hinput
    exact ⟨args', rest', hargs, .some hderived, hrest⟩

theorem ArgumentList.spliced {l : Nat} {input rest input' : Tokens} {args : List Node}
    (h : ArgumentList l input args rest) (hinput : Respells f next behind input input') :
    ∃ args' rest', unlinedNodes args' = unlinedNodes args ∧ ArgumentList l input' args' rest' ∧
      Respells f next behind rest rest' := by
  match h with
  | .last item closes =>
    obtain ⟨n', mid', hn, hitem, hmid⟩ := Expression.spliced item hinput
    obtain ⟨rest', rfl, hrest⟩ := hmid.cons_inv (by simp [closes])
    exact ⟨[n'], rest', by simp only [unlinedNodes, hn], .last hitem closes, hrest⟩
  | .more item separates others =>
    obtain ⟨n', mid', hn, hitem, hmid⟩ := Expression.spliced item hinput
    obtain ⟨mid', rfl, hafter⟩ := hmid.cons_inv (by simp [separates])
    obtain ⟨args', rest', hargs, hothers, hrest⟩ := ArgumentList.spliced others hafter
    exact ⟨n' :: args', rest', by simp only [unlinedNodes, hn, hargs],
      .more hitem separates hothers, hrest⟩

end

/-! ### Parts of statements -/

theorem Names.spliced {input rest input' : Tokens} {names : List String}
    (h : Names input names rest) (hinput : Respells f next behind input input') :
    ∃ rest', Names input' names rest' ∧ Respells f next behind rest rest' := by
  induction h generalizing input' with
  | last named ahead =>
    obtain ⟨rest', rfl, hrest⟩ := hinput.cons_inv named.not_end
    exact ⟨rest', .last named (hrest.ahead (by decide) ahead), hrest⟩
  | more named separates _ ih =>
    obtain ⟨input', rfl, hcomma⟩ := hinput.cons_inv named.not_end
    obtain ⟨input', rfl, hafter⟩ := hcomma.cons_inv (by simp [separates])
    obtain ⟨rest', hothers, hrest⟩ := ih hafter
    exact ⟨rest', .more named separates hothers, hrest⟩

theorem Declaration.spliced {l line : Nat} {declared : DeclaredType} {input rest input' : Tokens}
    {n : Node} (h : Declaration l declared line input n rest)
    (hinput : Respells f next behind input input') (line' : Nat) :
    ∃ n' rest', n'.unlined = n.unlined ∧ Declaration l declared line' input' n' rest' ∧
      Respells f next behind rest rest' := by
  cases h with
  | plain declares ahead =>
    obtain ⟨rest', hdeclares, hrest⟩ := declares.spliced hinput
    exact ⟨_, rest', by simp only [Node.unlined],
      .plain hdeclares (hrest.ahead (by decide) ahead), hrest⟩
  | initialized declares assigns initializer =>
    obtain ⟨mid', hdeclares, hmid⟩ := declares.spliced hinput
    obtain ⟨mid', rfl, hafter⟩ := hmid.cons_inv (by simp [assigns])
    obtain ⟨value', rest', hvalue, hinitializer, hrest⟩ := initializer.spliced hafter
    exact ⟨_, rest', by simp only [Node.unlined, unlinedOption, hvalue],
      .initialized hdeclares assigns hinitializer, hrest⟩

theorem Parameter.spliced {input rest input' : Tokens} {param : ConsoleScript.Parameter}
    (h : Parameter input param rest) (hinput : Respells f next behind input input') :
    ∃ rest', Parameter input' param rest' ∧ Respells f next behind rest rest' := by
  obtain ⟨type_named, named⟩ := h
  obtain ⟨input', rfl, hname⟩ := hinput.cons_inv type_named.not_end
  obtain ⟨rest', rfl, hrest⟩ := hname.cons_inv named.not_end
  exact ⟨rest', .typed type_named named, hrest⟩

theorem ParameterList.spliced {input rest input' : Tokens} {params : List ConsoleScript.Parameter}
    (h : ParameterList input params rest) (hinput : Respells f next behind input input') :
    ∃ rest', ParameterList input' params rest' ∧ Respells f next behind rest rest' := by
  induction h generalizing input' with
  | last item closes =>
    obtain ⟨mid', hitem, hmid⟩ := item.spliced hinput
    obtain ⟨rest', rfl, hrest⟩ := hmid.cons_inv (by simp [closes])
    exact ⟨rest', .last hitem closes, hrest⟩
  | more item separates _ ih =>
    obtain ⟨mid', hitem, hmid⟩ := item.spliced hinput
    obtain ⟨mid', rfl, hafter⟩ := hmid.cons_inv (by simp [separates])
    obtain ⟨rest', hothers, hrest⟩ := ih hafter
    exact ⟨rest', .more hitem separates hothers, hrest⟩

theorem Parameters.spliced {input rest input' : Tokens} {params : List ConsoleScript.Parameter}
    (h : Parameters input params rest) (hinput : Respells f next behind input input') :
    ∃ rest', Parameters input' params rest' ∧ Respells f next behind rest rest' := by
  cases h with
  | none closes =>
    obtain ⟨rest', rfl, hrest⟩ := hinput.cons_inv (by simp [closes])
    exact ⟨rest', .none closes, hrest⟩
  | some h =>
    obtain ⟨rest', hderived, hrest⟩ := h.spliced hinput
    exact ⟨rest', .some hderived, hrest⟩

/-! ### Statements -/

theorem EndsInBrace.spliced {input rest input' rest' : Tokens} {n n' : Node}
    (h : EndsInBrace input n rest) (htakes : Takes input rest) (hn : n'.unlined = n.unlined)
    (hinput : Respells f next behind input input') (hrest : Respells f next behind rest rest') :
    EndsInBrace input' n' rest' := by
  obtain ⟨hnoOp, taken, brace, rfl, hbrace⟩ := h
  have hsame : n'.isNoOp = n.isNoOp := by rw [← n'.isNoOp_unlined, hn, n.isNoOp_unlined]
  refine ⟨hsame.trans hnoOp, taken.map (Token.relined f), brace.relined f, ?_, hbrace⟩
  have htaken : ∀ t ∈ taken ++ [brace], t.kind ≠ .endOfText := by
    obtain ⟨before, hbefore, hnone⟩ := htakes
    rw [List.append_cons] at hbefore
    rwa [List.append_cancel_right hbefore]
  rw [List.append_cons] at hinput
  obtain ⟨mid', rfl, hmid⟩ := hinput.append_inv htaken
  rw [hmid.unique hrest]
  simp

/-- A statement that could be separated from the next does not begin at the end of the text. -/
theorem Statement.head_not_end {l : Nat} {closing : Kind} {t u : Token Kind}
    {input mid input' : Tokens} {n : Node} (hinput : Respells f next behind (t :: input) input')
    (head : t.kind ≠ .semicolon ∧ t.kind ≠ closing) (first : Statement l (t :: input) n (u :: mid))
    (separated : u.kind = .semicolon ∨ u.kind = closing ∨ EndsInBrace (t :: input) n (u :: mid)) :
    t.kind ≠ .endOfText := by
  cases hinput with
  | cons ht => exact ht
  | last ends =>
    rcases first.length_lt_or with hlt | ⟨hsame, hnoOp⟩
    · simp at hlt
    · cases hsame
      rcases separated with hsemicolon | hclosing | hbrace
      · exact absurd hsemicolon head.1
      · exact absurd hclosing head.2
      · rw [hbrace.1] at hnoOp
        cases hnoOp

mutual

theorem Statement.spliced {l : Nat} {input rest input' : Tokens} {n : Node}
    (h : Statement l input n rest) (hinput : Respells f next behind input input') :
    ∃ n' rest', n'.unlined = n.unlined ∧ Statement l input' n' rest' ∧
      Respells f next behind rest rest' := by
  match h with
  | .block h =>
    obtain ⟨n', rest', hn, hderived, hrest⟩ := Block.spliced h hinput
    exact ⟨n', rest', hn, .block hderived, hrest⟩
  | .inferred head h =>
    obtain ⟨input', rfl, hafter⟩ := hinput.cons_inv (by simp [head])
    obtain ⟨n', rest', hn, hderived, hrest⟩ := h.spliced hafter _
    exact ⟨n', rest', hn, .inferred head hderived, hrest⟩
  | .call named opens arguments =>
    obtain ⟨input', rfl, hopening⟩ := hinput.cons_inv named.not_end
    obtain ⟨input', rfl, hafter⟩ := hopening.cons_inv (by simp [opens])
    obtain ⟨args', rest', hargs, hderived, hrest⟩ := arguments.spliced hafter
    exact ⟨_, rest', by simp only [Node.unlined, hargs], .call named opens hderived, hrest⟩
  | .assignment named assigns h =>
    obtain ⟨input', rfl, hequals⟩ := hinput.cons_inv named.not_end
    obtain ⟨input', rfl, hafter⟩ := hequals.cons_inv (by simp [assigns])
    obtain ⟨value', rest', hvalue, hderived, hrest⟩ := h.spliced hafter
    exact ⟨_, rest', by simp only [Node.unlined, hvalue], .assignment named assigns hderived, hrest⟩
  | .declaration named ahead h =>
    obtain ⟨input', rfl, hafter⟩ := hinput.cons_inv named.not_end
    obtain ⟨n', rest', hn, hderived, hrest⟩ := h.spliced hafter _
    obtain ⟨input', rfl, _⟩ := hafter.cons_inv (by simp [ahead])
    exact ⟨n', rest', hn, .declaration named ahead hderived, hrest⟩
  | .lone named ahead =>
    obtain ⟨rest', rfl, hrest⟩ := hinput.cons_inv named.not_end
    exact ⟨_, rest', by simp only [Node.unlined],
      .lone named (hrest.ahead (by decide) ahead), hrest⟩
  | .function head type_named named opens parameters h =>
    obtain ⟨input', rfl, htype⟩ := hinput.cons_inv (by simp [head])
    obtain ⟨input', rfl, hname⟩ := htype.cons_inv type_named.not_end
    obtain ⟨input', rfl, hopening⟩ := hname.cons_inv named.not_end
    obtain ⟨input', rfl, hafter⟩ := hopening.cons_inv (by simp [opens])
    obtain ⟨mid', hparameters, hmid⟩ := parameters.spliced hafter
    obtain ⟨body', rest', hbody, hderived, hrest⟩ := Body.spliced h hmid
    exact ⟨_, rest', by simp only [Node.unlined, hbody],
      .function head type_named named opens hparameters hderived, hrest⟩
  | .typeOf head opens h closes =>
    obtain ⟨input', rfl, hopening⟩ := hinput.cons_inv (by simp [head])
    obtain ⟨input', rfl, hafter⟩ := hopening.cons_inv (by simp [opens])
    obtain ⟨n', mid', hn, hderived, hmid⟩ := h.spliced hafter
    obtain ⟨rest', rfl, hrest⟩ := hmid.cons_inv (by simp [closes])
    exact ⟨_, rest', by simp only [Node.unlined, hn], .typeOf head opens hderived closes, hrest⟩
  | .returning head h =>
    obtain ⟨input', rfl, hafter⟩ := hinput.cons_inv (by simp [head])
    obtain ⟨n', rest', hn, hderived, hrest⟩ := h.spliced hafter
    exact ⟨_, rest', by simp only [Node.unlined, hn], .returning head hderived, hrest⟩
  | .branch head h =>
    obtain ⟨input', rfl, hafter⟩ := hinput.cons_inv (by simp [head])
    obtain ⟨n', rest', hn, hderived, hrest⟩ := Branch.spliced h hafter _
    exact ⟨n', rest', hn, .branch head hderived, hrest⟩
  | .loop head times h =>
    obtain ⟨input', rfl, hafter⟩ := hinput.cons_inv (by simp [head])
    obtain ⟨count', mid', hcount, htimes, hmid⟩ := times.spliced hafter
    obtain ⟨body', rest', hbody, hderived, hrest⟩ := Statement.spliced h hmid
    exact ⟨_, rest', by simp only [Node.unlined, hcount, hbody], .loop head htimes hderived, hrest⟩
  | .print head h =>
    obtain ⟨input', rfl, hafter⟩ := hinput.cons_inv (by simp [head])
    obtain ⟨n', rest', hn, hderived, hrest⟩ := h.spliced hafter
    exact ⟨_, rest', by simp only [Node.unlined, hn], .print head hderived, hrest⟩
  | .expression head h =>
    obtain ⟨n', rest', hn, hderived, hrest⟩ := h.spliced hinput
    obtain ⟨input', rfl, _⟩ := hinput.cons_inv fun hend => by
      rw [hend] at head
      cases head
    exact ⟨n', rest', hn, .expression head hderived, hrest⟩
  | .empty ahead =>
    obtain ⟨t', behind', rfl, _⟩ := hinput.exists_head
    have hempty := hinput.head (p := (startsStatement · = false)) rfl ahead
    exact ⟨.noOp t'.line, _, by simp only [Node.unlined], .empty hempty, hinput⟩

theorem Branch.spliced {l line : Nat} {input rest input' : Tokens} {n : Node}
    (h : Branch l line input n rest) (hinput : Respells f next behind input input')
    (line' : Nat) :
    ∃ n' rest', n'.unlined = n.unlined ∧ Branch l line' input' n' rest' ∧
      Respells f next behind rest rest' := by
  match h with
  | .single opens test closes h ahead =>
    obtain ⟨input', rfl, hafter⟩ := hinput.cons_inv (by simp [opens])
    obtain ⟨condition', mid', hcondition, htest, hmid⟩ := test.spliced hafter
    obtain ⟨mid', rfl, hthen⟩ := hmid.cons_inv (by simp [closes])
    obtain ⟨body', rest', hbody, hderived, hrest⟩ := Statement.spliced h hthen
    exact ⟨_, rest', by simp only [Node.unlined, unlinedOption, hcondition, hbody],
      .single opens htest closes hderived (hrest.ahead (by decide) ahead), hrest⟩
  | .otherwise opens test closes h splits ahead h' =>
    obtain ⟨input', rfl, hafter⟩ := hinput.cons_inv (by simp [opens])
    obtain ⟨condition', mid', hcondition, htest, hmid⟩ := test.spliced hafter
    obtain ⟨mid', rfl, hthen⟩ := hmid.cons_inv (by simp [closes])
    obtain ⟨body', behind', hbody, hderived, hbehind⟩ := Statement.spliced h hthen
    obtain ⟨behind', rfl, helse⟩ := hbehind.cons_inv (by simp [splits])
    obtain ⟨other', rest', hother, hderived', hrest⟩ := Statement.spliced h' helse
    obtain ⟨t', behind', rfl, _⟩ := helse.exists_head
    have hnoIf := helse.head (p := (· ≠ .if)) (by decide) ahead
    exact ⟨_, rest', by simp only [Node.unlined, unlinedOption, hcondition, hbody, hother],
      .otherwise opens htest closes hderived splits hnoIf hderived', hrest⟩
  | .chained opens test closes h splits again h' =>
    obtain ⟨input', rfl, hafter⟩ := hinput.cons_inv (by simp [opens])
    obtain ⟨condition', mid', hcondition, htest, hmid⟩ := test.spliced hafter
    obtain ⟨mid', rfl, hthen⟩ := hmid.cons_inv (by simp [closes])
    obtain ⟨body', behind', hbody, hderived, hbehind⟩ := Statement.spliced h hthen
    obtain ⟨behind', rfl, helse⟩ := hbehind.cons_inv (by simp [splits])
    obtain ⟨behind', rfl, hif⟩ := helse.cons_inv (by simp [again])
    obtain ⟨other', rest', hother, hderived', hrest⟩ := Branch.spliced h' hif _
    exact ⟨_, rest', by simp only [Node.unlined, unlinedOption, hcondition, hbody, hother],
      .chained opens htest closes hderived splits again hderived', hrest⟩

theorem Block.spliced {l : Nat} {input rest input' : Tokens} {n : Node}
    (h : Block l input n rest) (hinput : Respells f next behind input input') :
    ∃ n' rest', n'.unlined = n.unlined ∧ Block l input' n' rest' ∧
      Respells f next behind rest rest' := by
  match h with
  | .braces opens h closes =>
    obtain ⟨input', rfl, hafter⟩ := hinput.cons_inv (by simp [opens])
    obtain ⟨nodes', mid', hnodes, hmid, hderived⟩ := Statements.spliced h hafter
    obtain ⟨rest', rfl, hrest⟩ := hmid.cons_inv (by simp [closes])
    have hstatements := hderived [] _ (.done closes)
    rw [List.append_nil] at hstatements
    exact ⟨_, rest', by simp only [Node.unlined, hnodes], .braces opens hstatements closes, hrest⟩

theorem Body.spliced {l : Nat} {returnType : String} {input rest input' : Tokens} {n : Node}
    (h : Body l returnType input n rest) (hinput : Respells f next behind input input') :
    ∃ n' rest', n'.unlined = n.unlined ∧ Body l returnType input' n' rest' ∧
      Respells f next behind rest rest' := by
  match h with
  | .block h =>
    obtain ⟨n', rest', hn, hderived, hrest⟩ := Block.spliced h hinput
    exact ⟨n', rest', hn, .block hderived, hrest⟩
  | .expression result ahead h =>
    obtain ⟨n', rest', hn, hderived, hrest⟩ := h.spliced hinput
    obtain ⟨t', behind', rfl, _⟩ := hinput.exists_head
    have hahead := hinput.head (p := fun kind => kind ≠ .leftBrace ∧ kind ≠ .return)
      (by decide) ahead
    exact ⟨_, rest', by simp only [Node.unlined, unlinedNodes, hn],
      .expression result hahead hderived, hrest⟩
  | .statement result ahead h =>
    obtain ⟨n', rest', hn, hderived, hrest⟩ := Statement.spliced h hinput
    obtain ⟨t', behind', rfl, hkind⟩ := hinput.exists_head
    refine ⟨_, rest', ?_, .statement ?_ ?_ hderived, hrest⟩
    · simp only [Node.unlined, unlinedNodes, hn]
    · rcases hkind with hsame | ⟨hend, _⟩
      · rw [hsame]
        exact result
      · exact result.imp_right fun hreturn => by
          rw [hreturn] at hend
          cases hend
    · exact hinput.head (p := (· ≠ .leftBrace)) (by decide) ahead

/-- Other statements may follow those of the derivation. -/
theorem Statements.spliced {l : Nat} {closing : Kind} {input rest input' : Tokens}
    {nodes : List Node} (h : Statements l closing input nodes rest)
    (hinput : Respells f next behind input input') :
    ∃ nodes' rest', unlinedNodes nodes' = unlinedNodes nodes ∧
      Respells f next behind rest rest' ∧ ∀ more final, Statements l closing rest' more final →
        Statements l closing input' (nodes' ++ more) final := by
  match h with
  | .done closes => exact ⟨[], input', rfl, hinput, fun _ _ hmore => hmore⟩
  | .semicolon separates more =>
    obtain ⟨input', rfl, hafter⟩ := hinput.cons_inv (by simp [separates])
    obtain ⟨nodes', rest', hnodes, hrest, hderived⟩ := Statements.spliced more hafter
    exact ⟨nodes', rest', hnodes, hrest, fun _ _ hmore =>
      .semicolon separates (hderived _ _ hmore)⟩
  | .statement head first separated more =>
    obtain ⟨n', mid', hn, hfirst, hmid⟩ := Statement.spliced first hinput
    obtain ⟨nodes', rest', hnodes, hrest, hderived⟩ := Statements.spliced more hmid
    have hnotEnd := Statement.head_not_end hinput head first separated
    have hbrace := fun h : EndsInBrace _ _ _ => h.spliced first.takes hn hinput hmid
    obtain ⟨input', rfl, _⟩ := hinput.cons_inv hnotEnd
    obtain ⟨u', mid', rfl, hkind⟩ := hmid.exists_head
    refine ⟨n' :: nodes', rest', by simp only [unlinedNodes, hn, hnodes], hrest, ?_⟩
    intro others final hmore
    refine .statement head hfirst ?_ (hderived others final hmore)
    rcases hkind with hsame | ⟨_, hsemicolon⟩
    · rw [hsame]
      exact separated.imp_right (Or.imp_right hbrace)
    · exact .inl hsemicolon

end

theorem Unit.exists_block {l : Nat} {input : Tokens} {tree : Node} (h : Unit l input tree) :
    ∃ nodes line, tree = .block nodes line := by
  cases h
  exact ⟨_, _, rfl⟩

/-- Two units with a semicolon between them are one. -/
theorem Unit.joined {l line line' : Nat} {input input' joined : Tokens} {nodes nodes' : List Node}
    {semicolon final : Token Kind} (h : Unit l input (.block nodes line))
    (h' : Unit l input' (.block nodes' line')) (hsemicolon : semicolon.kind = .semicolon)
    (hfinal : final.kind = .endOfText) (hinput : Respells id semicolon behind input joined)
    (hinput' : Respells f final [] input' behind) :
    ∃ ns line'', unlinedNodes ns = unlinedNodes nodes ++ unlinedNodes nodes' ∧
      Unit l joined (.block ns line'') := by
  cases h with
  | statements h =>
    cases h' with
    | statements h' =>
      obtain ⟨ns, rest, hns, hrest, hderived⟩ := h.spliced hinput
      obtain ⟨ns', rest', hns', hrest', hderived'⟩ := h'.spliced hinput'
      obtain ⟨t, joined, rfl, _⟩ := hinput.exists_head
      cases hrest with
      | cons _ more => cases more
      | last =>
        cases hrest' with
        | cons _ more => cases more
        | last =>
          have hbehind := hderived' [] _ (.done hfinal)
          have hjoined := hderived _ _ (.semicolon hsemicolon hbehind)
          refine ⟨ns ++ (ns' ++ []), t.line, ?_, .statements hjoined⟩
          rw [List.append_nil, unlinedNodes_append, hns, hns']

end

end Derivation

end ConsoleScript
