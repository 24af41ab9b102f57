import ConsoleScript.Proofs.Syntax.Derivation
import ConsoleScript.Proofs.Syntax.Reading

/-!
# The loops of the parser

One round of each loop, seen from both sides: what a round that succeeds has done, and on which
tokens it succeeds. What whole loops take and read follows from this by `iterate_ok`, `Reads.last`
and `Reads.again`.
-/

namespace ConsoleScript.Derivation

open Grammar Parse

variable {σ α : Type} [TokenSource σ Kind]

/-! ### Identifiers -/

theorem identifier_ok {w w' : Window σ Kind} {name : String} (h : identifier w = .ok name w') :
    Named w.current name ∧ w.StepsTo w' := by
  obtain ⟨w₁, hkind, hsteps, h⟩ := consume_bind_ok h
  cases hvalue : w.current.value with
  | none =>
    simp only [hvalue] at h
    cases h
  | some value =>
    simp only [hvalue] at h
    cases value with
    | text text =>
      cases h
      exact ⟨⟨hkind, hvalue⟩, hsteps⟩
    | _ => cases h

theorem identifier_bind_ok {f : String → Parse σ Kind α} {w w' : Window σ Kind} {a : α}
    (h : (identifier >>= f) w = .ok a w') :
    ∃ name w₁, Named w.current name ∧ w.StepsTo w₁ ∧ f name w₁ = .ok a w' := by
  obtain ⟨name, w₁, hname, h⟩ := bind_ok h
  obtain ⟨hnamed, hsteps⟩ := identifier_ok hname
  exact ⟨name, w₁, hnamed, hsteps, h⟩

theorem isEnd_eq_false {t : Token Kind} (h : t.kind ≠ .endOfText) : t.isEnd = false :=
  beq_eq_false_iff_ne.mpr h

theorem reads_advance_of_kind {kind : Kind} {l k : Nat} {t : Token Kind} {rest : Tokens}
    (h : t.kind = kind) (hend : kind ≠ .endOfText) (hrest : rest ≠ []) :
    Reads (advance : Parse σ Kind (Token Kind)) l k (t :: rest) t rest :=
  reads_advance (isEnd_eq_false (h ▸ hend)) hrest

theorem reads_consume_of_kind {kind : Kind} {l k : Nat} {t : Token Kind} {rest : Tokens}
    (h : t.kind = kind) (hend : kind ≠ .endOfText) (hrest : rest ≠ []) :
    Reads (consume kind : Parse σ Kind (Token Kind)) l k (t :: rest) t rest :=
  reads_consume h (isEnd_eq_false (h ▸ hend)) hrest

theorem Named.reads {l k : Nat} {t : Token Kind} {name : String} {rest : Tokens}
    (h : Named t name) (hrest : rest ≠ []) :
    Reads (identifier : Parse σ Kind String) l k (t :: rest) name rest := by
  refine (reads_consume_of_kind h.1 (by decide) hrest).bind ?_
  rw [h.2]
  exact reads_pure name rest

/-! ### Items with commas between them -/

def commaStep (item : Parse σ Kind α) (closing : Kind) (items : List α) :
    Parse σ Kind (List α ⊕ List α) := do
  let items := (← item) :: items
  if ← isAt .comma then
    let _ ← advance
    return .inl items
  else if ← isAt closing then
    let _ ← advance
    return .inr items.reverse
  else unexpected

theorem commaSeparated_eq (item : Parse σ Kind α) (closing : Kind) :
    commaSeparated item closing = (do
      if ← isAt closing then
        let _ ← advance
        return []
      else iterate (commaStep item closing) []) := rfl

theorem commaStep_ok {item : Parse σ Kind α} {closing : Kind} {items : List α}
    {w w' : Window σ Kind} {r : List α ⊕ List α} (h : commaStep item closing items w = .ok r w') :
    ∃ a w₁, item w = .ok a w₁ ∧ w₁.StepsTo w' ∧
      (w₁.current.kind = .comma ∧ r = .inl (a :: items) ∨
        w₁.current.kind = closing ∧ r = .inr (items.reverse ++ [a])) := by
  obtain ⟨a, w₁, ha, h⟩ := bind_ok h
  rw [isAt_bind] at h
  split at h
  · rename_i hat
    obtain ⟨w₂, hsteps, h⟩ := advance_bind_ok h
    cases h
    exact ⟨a, w₁, ha, hsteps, .inl ⟨beq_iff_eq.mp hat, rfl⟩⟩
  · rw [isAt_bind] at h
    split at h
    · rename_i hat
      obtain ⟨w₂, hsteps, h⟩ := advance_bind_ok h
      cases h
      exact ⟨a, w₁, ha, hsteps, .inr ⟨beq_iff_eq.mp hat, by rw [List.reverse_cons]⟩⟩
    · cases h

theorem reads_commaSeparated_nil {item : Parse σ Kind α} {closing : Kind} {l k : Nat}
    {t : Token Kind} {rest : Tokens} (ht : t.kind = closing) (hend : closing ≠ .endOfText)
    (hrest : rest ≠ []) : Reads (commaSeparated item closing) l k (t :: rest) [] rest := by
  rw [commaSeparated_eq]
  refine reads_isAt ?_
  rw [ht, beq_self_eq_true, if_pos rfl]
  exact (reads_advance_of_kind ht hend hrest).bind (reads_pure [] rest)

theorem reads_commaSeparated_loop {item : Parse σ Kind α} {closing : Kind} {l k : Nat}
    {t : Token Kind} {input rest : Tokens} {items : List α} (ht : t.kind ≠ closing)
    (h : Reads (iterate (commaStep item closing) []) l k (t :: input) items rest) :
    Reads (commaSeparated item closing) l k (t :: input) items rest := by
  rw [commaSeparated_eq]
  refine reads_isAt ?_
  rw [beq_eq_false_iff_ne.mpr ht]
  exact h

theorem reads_commaStep_last {item : Parse σ Kind α} {closing : Kind} {l k : Nat} {a : α}
    {t : Token Kind} {input rest : Tokens} (items : List α)
    (h : Reads item l k input a (t :: rest)) (ht : t.kind = closing) (hcomma : closing ≠ .comma)
    (hend : closing ≠ .endOfText) (hrest : rest ≠ []) :
    Reads (commaStep item closing items) l k input (.inr (items.reverse ++ [a])) rest := by
  refine h.bind (reads_isAt ?_)
  rw [ht, beq_eq_false_iff_ne.mpr hcomma]
  refine reads_isAt ?_
  rw [ht, beq_self_eq_true, if_pos rfl, ← List.reverse_cons]
  exact (reads_advance_of_kind ht hend hrest).bind (reads_pure _ rest)

theorem reads_commaStep_more {item : Parse σ Kind α} {closing : Kind} {l k : Nat} {a : α}
    {t : Token Kind} {input mid : Tokens} (items : List α)
    (h : Reads item l k input a (t :: mid)) (ht : t.kind = .comma) (hmid : mid ≠ []) :
    Reads (commaStep item closing items) l k input (.inl (a :: items)) mid := by
  refine h.bind (reads_isAt ?_)
  rw [ht, beq_self_eq_true, if_pos rfl]
  exact (reads_advance_of_kind ht (by decide) hmid).bind (reads_pure _ mid)

/-! ### Names with commas between them -/

def namesStep (names : List String) : Parse σ Kind (List String ⊕ List String) := do
  let names := (← identifier) :: names
  if ← isAt .comma then
    let _ ← advance
    return .inl names
  else return .inr names.reverse

theorem names_eq : (names : Parse σ Kind (List String)) = iterate namesStep [] := rfl

theorem namesStep_ok {done : List String} {w w' : Window σ Kind} {r : List String ⊕ List String}
    (h : namesStep done w = .ok r w') :
    ∃ name w₁, Named w.current name ∧ w.StepsTo w₁ ∧
      (w₁.current.kind = .comma ∧ w₁.StepsTo w' ∧ r = .inl (name :: done) ∨
        w₁.current.kind ≠ .comma ∧ w' = w₁ ∧ r = .inr (done.reverse ++ [name])) := by
  obtain ⟨name, w₁, hnamed, hsteps, h⟩ := identifier_bind_ok h
  refine ⟨name, w₁, hnamed, hsteps, ?_⟩
  rw [isAt_bind] at h
  split at h
  · rename_i hat
    obtain ⟨w₂, hsteps', h⟩ := advance_bind_ok h
    cases h
    exact .inl ⟨beq_iff_eq.mp hat, hsteps', rfl⟩
  · rename_i hat
    cases h
    exact .inr ⟨fun hcomma => hat (beq_iff_eq.mpr hcomma), rfl, by rw [List.reverse_cons]⟩

theorem reads_namesStep_last {l k : Nat} {t : Token Kind} {name : String} {rest : Tokens}
    (done : List String) (named : Named t name) (ahead : Ahead (· ≠ .comma) rest)
    (hrest : rest ≠ []) :
    Reads (namesStep done : Parse σ Kind _) l k (t :: rest) (.inr (done.reverse ++ [name]))
      rest := by
  obtain ⟨u, behind, rfl⟩ := List.exists_cons_of_ne_nil hrest
  refine (named.reads hrest).bind (reads_isAt ?_)
  rw [beq_eq_false_iff_ne.mpr (ahead u rfl), ← List.reverse_cons]
  exact reads_pure _ _

theorem reads_namesStep_more {l k : Nat} {t comma : Token Kind} {name : String} {mid : Tokens}
    (done : List String) (named : Named t name) (separates : comma.kind = .comma)
    (hmid : mid ≠ []) :
    Reads (namesStep done : Parse σ Kind _) l k (t :: comma :: mid) (.inl (name :: done)) mid := by
  refine (named.reads (List.cons_ne_nil _ _)).bind (reads_isAt ?_)
  rw [separates, beq_self_eq_true, if_pos rfl]
  exact (reads_advance_of_kind separates (by decide) hmid).bind (reads_pure _ mid)

/-! ### Statements -/

def statementsStep (statement : Parse σ Kind Node) (closing : Kind) (done : List Node) :
    Parse σ Kind (List Node ⊕ List Node) := do
  if ← isAt .semicolon then
    let _ ← advance
    return .inl done
  else if ← isAt closing then return .inr done.reverse
  else
    let node ← statement
    let w ← get
    let separated := w.isAt .semicolon || w.isAt closing ||
      (w.previous = some .rightBrace && !node.isNoOp)
    if separated then return .inl (node :: done) else unexpected

theorem statements_eq (stmt : Parse σ Kind Node) (closing : Kind) :
    statements stmt closing = iterate (statementsStep stmt closing) [] := rfl

theorem statementsStep_ok {stmt : Parse σ Kind Node} {closing : Kind} {done : List Node}
    {w w' : Window σ Kind} {r : List Node ⊕ List Node}
    (h : statementsStep stmt closing done w = .ok r w') :
    (w.current.kind = .semicolon ∧ w.StepsTo w' ∧ r = .inl done) ∨
    (w.current.kind = closing ∧ w' = w ∧ r = .inr done.reverse) ∨
    ((w.current.kind ≠ .semicolon ∧ w.current.kind ≠ closing) ∧ ∃ node, stmt w = .ok node w' ∧
      r = .inl (node :: done) ∧ (w'.current.kind = .semicolon ∨ w'.current.kind = closing ∨
        w'.previous = some .rightBrace ∧ node.isNoOp = false)) := by
  unfold statementsStep at h
  rw [isAt_bind] at h
  split at h
  · rename_i hat
    obtain ⟨w₁, hsteps, h⟩ := advance_bind_ok h
    cases h
    exact .inl ⟨beq_iff_eq.mp hat, hsteps, rfl⟩
  · rename_i hsemicolon
    rw [isAt_bind] at h
    split at h
    · rename_i hat
      cases h
      exact .inr (.inl ⟨beq_iff_eq.mp hat, rfl, rfl⟩)
    · rename_i hclosing
      obtain ⟨node, w₁, hnode, h⟩ := bind_ok h
      rw [get_bind] at h
      split at h
      · rename_i hseparated
        cases h
        refine .inr (.inr ⟨⟨fun heq => hsemicolon (beq_iff_eq.mpr heq),
          fun heq => hclosing (beq_iff_eq.mpr heq)⟩, node, hnode, rfl, ?_⟩)
        simpa only [Window.isAt, Bool.or_eq_true, Bool.and_eq_true, beq_iff_eq,
          decide_eq_true_eq, Bool.not_eq_true', or_assoc] using hseparated
      · cases h

theorem reads_statementsStep_semicolon {stmt : Parse σ Kind Node} {closing : Kind} {l k : Nat}
    {t : Token Kind} {input : Tokens} (done : List Node) (ht : t.kind = .semicolon)
    (hinput : input ≠ []) :
    Reads (statementsStep stmt closing done) l k (t :: input) (.inl done) input := by
  refine reads_isAt ?_
  rw [ht, beq_self_eq_true, if_pos rfl]
  exact (reads_advance_of_kind ht (by decide) hinput).bind (reads_pure _ _)

theorem reads_statementsStep_statement {stmt : Parse σ Kind Node} {closing : Kind} {l k : Nat}
    {t u : Token Kind} {input mid : Tokens} {n : Node} (done : List Node)
    (head : t.kind ≠ .semicolon ∧ t.kind ≠ closing)
    (first : Reads stmt l k (t :: input) n (u :: mid))
    (separated : u.kind = .semicolon ∨ u.kind = closing ∨ EndsInBrace (t :: input) n (u :: mid)) :
    Reads (statementsStep stmt closing done) l k (t :: input) (.inl (n :: done)) (u :: mid) := by
  refine reads_isAt ?_
  rw [beq_eq_false_iff_ne.mpr head.1]
  refine reads_isAt ?_
  rw [beq_eq_false_iff_ne.mpr head.2, if_neg Bool.false_ne_true]
  -- The window behind the statement decides, so the two parts are not bound by `Reads.bind`.
  intro w hw hdepth
  rcases first hw hdepth with ⟨w', hok, hreadsTo⟩ | ⟨hlt, line, w', herror⟩
  · refine .inl ⟨w', ?_, hreadsTo⟩
    rw [bind_of_ok hok, get_bind]
    have hseparated : (w'.isAt .semicolon || w'.isAt closing ||
        (w'.previous = some .rightBrace && !n.isNoOp)) = true := by
      simp only [Window.isAt, hreadsTo.faces.current, Bool.or_eq_true, Bool.and_eq_true,
        beq_iff_eq, decide_eq_true_eq, Bool.not_eq_true', or_assoc]
      rcases separated with hsemicolon | hcloses | ⟨hnoOp, taken, brace, htaken, hbrace⟩
      · exact .inl hsemicolon
      · exact .inr (.inl hcloses)
      · rw [htaken] at hreadsTo
        refine .inr (.inr ⟨?_, hnoOp⟩)
        rw [hreadsTo.previous_eq, hbrace]
    simp only [hseparated, ↓reduceIte]
    rfl
  · refine .inr ⟨hlt, line, w', ?_⟩
    rw [bind_of_error herror]

end ConsoleScript.Derivation
