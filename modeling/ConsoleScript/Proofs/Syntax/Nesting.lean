import Mathlib
import ConsoleScript.Proofs.Syntax.Following

/-!
# Parsing ends, and on the level on which it started

The machine goes through every rule of the grammar as the parser does. For the rules that call each
other this is shown by induction on the levels that are left, since every call that could come back
to where it was goes one level down. The machine therefore comes to an end on every text, and what
it comes to is what the parser gives.
-/

namespace ConsoleScript

open Config Script
open ConsoleScript.Derivation (isEnd_eq_false)

variable {α : Type} {l : Nat} {w : Window (Lexer Kind) Kind}

theorem isEnd_of_isAt {kind : Kind} (hat : w.isAt kind = true) (hkind : kind ≠ .endOfText) :
    w.current.isEnd = false :=
  isEnd_eq_false (beq_iff_eq.mp hat ▸ hkind)

theorem Script.followsAt_take {idle : α → Prop} (hw : w.Ready l) (hend : w.current.isEnd = false)
    (a : α) : FollowsAt idle w (do let _ ← advance; return a)
      (do let _ ← Parse.advance; return a) :=
  (followsAt_advance hend).bind_taking hw fun _ => follows_done trivial

theorem Script.FollowsAt.after_advance {idle : α → Prop} {p : Script (Lexer Kind) α}
    {f : Parse (Lexer Kind) Kind α} (hw : w.Ready l) (hend : w.current.isEnd = false)
    (hp : Follows l (fun _ => True) p f) : FollowsAt idle w (do let _ ← advance; p)
      (do let _ ← Parse.advance; f) :=
  (followsAt_advance hend).bind_taking hw fun _ => hp

/-! ### Items with commas between them -/

theorem Script.follows_commaStep {idle : α → Prop} {item : Script (Lexer Kind) α}
    {item' : Parse (Lexer Kind) Kind α} (hitem : Follows l idle item item') {closing : Kind}
    (hclosing : closing ≠ .endOfText) (items : List α) :
    Follows l (fun _ => False) (commaStep item closing items)
      (Derivation.commaStep item' closing items) := by
  apply hitem.bind
  intro a w hw
  apply followsAt_isAt
  apply FollowsAt.ite
  · intro hat
    exact followsAt_take hw (isEnd_of_isAt hat (by decide)) _
  · intro _
    apply followsAt_isAt
    apply FollowsAt.ite
    · intro hat
      exact followsAt_take hw (isEnd_of_isAt hat hclosing) _
    · intro _
      exact followsAt_unexpected

theorem Script.follows_commaSeparated {idle : α → Prop} {item : Script (Lexer Kind) α}
    {item' : Parse (Lexer Kind) Kind α} (hitem : Follows l idle item item') {closing : Kind}
    (hclosing : closing ≠ .endOfText) :
    Follows l (fun _ => False) (commaSeparated item closing)
      (Grammar.commaSeparated item' closing) := by
  intro w hw
  rw [Derivation.commaSeparated_eq]
  apply followsAt_isAt
  apply FollowsAt.ite
  · intro hat
    exact followsAt_take hw (isEnd_of_isAt hat hclosing) _
  · intro _
    exact Follows.iterate (fun items => (follows_commaStep hitem hclosing items).never) [] hw

theorem Script.follows_names : Follows l (fun _ => False) (iterate namesStep []) Grammar.names := by
  rw [Derivation.names_eq]
  refine .iterate (fun names => .never ?_) []
  apply follows_identifier.bind_taking
  intro name w hw
  apply followsAt_isAt
  apply FollowsAt.ite
  · intro hat
    exact followsAt_take hw (isEnd_of_isAt hat (by decide)) _
  · intro _
    exact followsAt_done trivial

theorem Script.follows_parameter : Follows l (fun _ => False) parameter Grammar.parameter := by
  apply follows_identifier.bind_taking
  intro typeName
  exact follows_identifier.bind fun name => follows_done trivial

/-! ### Parts that call expressions and statements -/

section Parts

variable {expr stmt : Parse (Lexer Kind) Kind Node}
  (hexpr : Follows l (fun _ => False) Procedure.expression.script expr)
  (hstmt : Follows l (fun n => n.isNoOp = true) Procedure.statement.script stmt)

include hexpr

theorem Script.follows_call (name : String) (line : Nat) :
    Follows l (fun _ => False) (call name line) (Grammar.call expr name line) := by
  apply (follows_consume (by decide)).bind_taking
  intro _
  exact (follows_commaSeparated hexpr (by decide)).bind fun args => follows_done trivial

theorem Script.follows_primary : Follows l (fun _ => False) primary (Grammar.primary expr) := by
  intro w hw
  apply followsAt_look
  dsimp only
  cases hkind : w.current.kind with
  | identifier =>
    refine (follows_peek.bind fun follower => ?_) hw
    apply follows_identifier.bind_taking
    intro name v hv
    apply FollowsAt.ite
    · intro _
      exact (follows_call hexpr name w.current.line).never hv
    · intro _
      exact followsAt_done trivial
  | leftParen =>
    have hend := isEnd_eq_false (t := w.current) (by rw [hkind]; decide)
    apply FollowsAt.after_advance hw hend
    apply hexpr.bind
    intro inner
    exact (follows_consume (by decide)).bind fun _ => follows_done trivial
  | _ =>
    cases hliteral : Grammar.literal? w.current with
    | none => exact followsAt_unexpected
    | some value =>
      exact followsAt_take hw (isEnd_eq_false (Derivation.literal_not_end hliteral)) _

theorem Script.follows_declaration (declared : DeclaredType) (line : Nat) :
    Follows l (fun _ => False) (declaration declared line)
      (Grammar.declaration expr declared line) := by
  apply follows_names.bind_taking
  intro names w hw
  apply followsAt_isAt
  apply FollowsAt.ite
  · intro hat
    apply FollowsAt.after_advance hw (isEnd_of_isAt hat (by decide))
    exact hexpr.bind fun value => follows_done trivial
  · intro _
    apply FollowsAt.ite
    · intro _
      exact followsAt_fail _
    · intro _
      exact followsAt_done trivial

theorem Script.follows_identifierLed :
    Follows l (fun _ => False) identifierLed (Grammar.identifierLed expr) := by
  intro w hw
  apply followsAt_look
  refine (follows_identifier.bind_taking fun name => ?_) hw
  intro v hv
  apply followsAt_look
  cases hkind : v.current.kind with
  | leftParen => exact (follows_call hexpr name w.line).never hv
  | assign =>
    have hend := isEnd_eq_false (t := v.current) (by rw [hkind]; decide)
    apply FollowsAt.after_advance hv hend
    exact hexpr.bind fun value => follows_done trivial
  | identifier => exact (follows_declaration hexpr (.named name) w.line).never hv
  | _ => exact followsAt_done trivial

omit hexpr

include hstmt

/-- After an empty statement that took nothing the loop does not go on: the token in front of it is
still there, and it neither separates nor closes. -/
theorem Script.follows_statementsStep (closing : Kind) (nodes : List Node) :
    Follows l (Sum.elim (fun _ => False) fun _ => True) (statementsStep closing nodes)
      (Derivation.statementsStep stmt closing nodes) := by
  intro w hw
  apply followsAt_isAt
  apply FollowsAt.ite
  · intro hat
    exact followsAt_take hw (isEnd_of_isAt hat (by decide)) _
  · intro hsemicolon
    apply followsAt_isAt
    apply FollowsAt.ite
    · intro _
      exact followsAt_done trivial
    · intro hclosing
      apply (hstmt hw).bind
      intro node v hrun
      apply followsAt_look
      dsimp only
      apply FollowsAt.ite
      · intro hseparated
        apply followsAt_done
        rintro rfl hnoOp
        simp [hsemicolon, hclosing, hnoOp] at hseparated
      · intro _
        exact followsAt_unexpected

theorem Script.follows_statements (closing : Kind) :
    Follows l (fun _ => True) (statements closing) (Grammar.statements stmt closing) :=
  .iterate (follows_statementsStep hstmt closing) []

theorem Script.follows_block : Follows l (fun _ => False) block (Grammar.block stmt) := by
  intro w hw
  apply followsAt_look
  refine ((follows_consume (by decide)).bind_taking fun _ => ?_) hw
  apply (follows_statements hstmt .rightBrace).bind
  intro nodes
  exact (follows_consume (by decide)).bind fun _ => follows_done trivial

include hexpr

theorem Script.follows_functionBody (returnType : String) :
    Follows l (fun _ => True) (functionBody returnType)
      (Grammar.functionBody expr stmt returnType) := by
  intro w hw
  apply followsAt_look
  apply FollowsAt.ite
  · intro _
    exact (follows_block hstmt).never hw
  · intro _
    apply FollowsAt.ite
    · intro _
      exact (hexpr.bind fun value => follows_done trivial) hw
    · intro _
      exact (hstmt.bind fun node => follows_done trivial) hw

theorem Script.follows_function :
    Follows l (fun _ => False) function (Grammar.function expr stmt) := by
  intro w hw
  apply followsAt_look
  refine ((follows_consume (by decide)).bind_taking fun _ => ?_) hw
  apply follows_identifier.bind
  intro returnType
  apply follows_identifier.bind
  intro name
  apply (follows_consume (by decide)).bind
  intro _
  apply (follows_commaSeparated follows_parameter (by decide)).bind
  intro params
  exact (follows_functionBody hexpr hstmt returnType).bind fun body => follows_done trivial

end Parts

/-! ### The rules that call each other -/

/-- The procedures for expressions, with `l` levels left. -/
structure ExpressionsFollow (l : Nat) : Prop where
  expression : Follows l (fun _ => False) Procedure.expression.script (Grammar.expression l)
  chain (tier : Grammar.Tier) :
    Follows l (fun _ => False) (Procedure.chain tier).script (Grammar.chain tier l)
  operand (tier : Grammar.Tier) :
    Follows l (fun _ => False) (Procedure.operand tier).script (Grammar.operand tier l)
  fold (tier : Grammar.Tier) (left : Node) :
    Follows l (fun _ => True) (Procedure.fold tier left).script (Grammar.fold tier l left)
  unary : Follows l (fun _ => False) Procedure.unary.script (Grammar.unary l)

theorem Script.follows_fold (hl : ∀ m, l = m + 1 → ExpressionsFollow m) (tier : Grammar.Tier)
    (left : Node) :
    Follows l (fun _ => True) (Procedure.fold tier left).script (Grammar.fold tier l left) := by
  apply Follows.run
  intro w hw
  rw [Grammar.fold]
  apply followsAt_look
  dsimp only
  cases hop : tier.operator? w.current.kind with
  | none => exact followsAt_done trivial
  | some op =>
    cases l with
    | zero => exact follows_counted_zero.never hw
    | succ l =>
      have hlower := hl l rfl
      have hcounted : FollowsAt (fun _ => True) w _ _ := FollowsAt.counted hw fun hready =>
        FollowsAt.after_advance hready (isEnd_eq_false (Derivation.operator_not_end hop))
          ((hlower.operand tier).bind fun right =>
            hlower.fold tier (.binary left op right w.current.line))
      simp only [bind_assoc] at hcounted
      exact hcounted

theorem Script.follows_unary (hl : ∀ m, l = m + 1 → ExpressionsFollow m)
    (hexpression : Follows l (fun _ => False) Procedure.expression.script (Grammar.expression l)) :
    Follows l (fun _ => False) Procedure.unary.script (Grammar.unary l) := by
  apply Follows.run
  intro w hw
  rw [Grammar.unary]
  apply followsAt_look
  apply FollowsAt.ite
  · intro hminus
    have hend := isEnd_eq_false (t := w.current) (by rw [hminus]; decide)
    apply FollowsAt.after_advance hw hend
    cases l with
    | zero => exact follows_nested_zero.bind fun _ => follows_done trivial
    | succ l => exact (hl l rfl).unary.nested.bind fun operand => follows_done trivial
  · intro _
    exact follows_primary hexpression hw

theorem Script.follows_chain {tier : Grammar.Tier}
    (hoperand : Follows l (fun _ => False) (Procedure.operand tier).script (Grammar.operand tier l))
    (hfold : ∀ left,
      Follows l (fun _ => True) (Procedure.fold tier left).script (Grammar.fold tier l left)) :
    Follows l (fun _ => False) (Procedure.chain tier).script (Grammar.chain tier l) := by
  apply Follows.run
  rw [Grammar.chain]
  exact hoperand.bind_taking hfold

theorem expressionsFollow_of_lower (hl : ∀ m, l = m + 1 → ExpressionsFollow m) :
    ExpressionsFollow l := by
  have hfold := follows_fold hl
  have hexpression :
      Follows l (fun _ => False) Procedure.expression.script (Grammar.expression l) := by
    apply Follows.run
    cases l with
    | zero =>
      rw [Grammar.expression]
      exact follows_nested_zero
    | succ l =>
      rw [Grammar.expression]
      exact ((hl l rfl).chain .sum).nested
  have hunary := follows_unary hl hexpression
  have hproduct : Follows l (fun _ => False) (Procedure.operand .product).script
      (Grammar.operand .product l) := by
    apply Follows.run
    rw [Grammar.operand]
    exact hunary
  have hsum : Follows l (fun _ => False) (Procedure.operand .sum).script
      (Grammar.operand .sum l) := by
    apply Follows.run
    rw [Grammar.operand]
    exact follows_chain hproduct (hfold .product)
  have hoperand (tier : Grammar.Tier) : Follows l (fun _ => False) (Procedure.operand tier).script
      (Grammar.operand tier l) := by
    cases tier with
    | sum => exact hsum
    | product => exact hproduct
  have hchain (tier : Grammar.Tier) := follows_chain (hoperand tier) (hfold tier)
  exact ⟨hexpression, hchain, hoperand, hfold, hunary⟩

theorem expressionsFollow (l : Nat) : ExpressionsFollow l := by
  induction l with
  | zero => exact expressionsFollow_of_lower fun m hm => by cases hm
  | succ l ih => exact expressionsFollow_of_lower fun m hm => by cases hm; exact ih

/-- The procedures for statements, with `l` levels left. Only an empty statement takes nothing. -/
structure StatementsFollow (l : Nat) : Prop where
  statement : Follows l (fun n => n.isNoOp = true) Procedure.statement.script (Grammar.statement l)
  branch (line : Nat) :
    Follows l (fun _ => False) (Procedure.branch line).script (Grammar.branch l line)

theorem Script.follows_branch (hl : ∀ m, l = m + 1 → StatementsFollow m)
    (hstatement : Follows l (fun n => n.isNoOp = true) Procedure.statement.script
      (Grammar.statement l)) (line : Nat) :
    Follows l (fun _ => False) (Procedure.branch line).script (Grammar.branch l line) := by
  apply Follows.run
  rw [Grammar.branch]
  apply (follows_consume (by decide)).bind_taking
  intro _
  apply (expressionsFollow l).expression.bind
  intro condition
  apply (follows_consume (by decide)).bind
  intro _
  apply hstatement.bind
  intro thenBody w hw
  apply followsAt_isAt
  apply FollowsAt.ite
  · intro hat
    apply FollowsAt.after_advance hw (isEnd_of_isAt hat (by decide))
    intro v hv
    apply followsAt_look
    apply followsAt_isAt
    apply FollowsAt.ite
    · intro hat
      apply FollowsAt.after_advance hv (isEnd_of_isAt hat (by decide))
      cases l with
      | zero => exact follows_nested_zero.bind fun _ => follows_done trivial
      | succ l => exact ((hl l rfl).branch v.line).nested.bind fun elseBody => follows_done trivial
    · intro _
      exact (hstatement.bind fun elseBody => follows_done trivial) hv
  · intro _
    exact followsAt_done trivial

theorem Script.follows_statement (hl : StatementsFollow l) :
    Follows (l + 1) (fun n => n.isNoOp = true) Procedure.statement.script
      (Grammar.statement (l + 1)) := by
  apply Follows.run
  rw [Grammar.statement]
  apply Follows.nested
  have hexpr := (expressionsFollow l).expression
  obtain ⟨hstmt, hbranch⟩ := hl
  intro w hw
  apply followsAt_look
  apply followsAt_look
  -- Every rule but the last starts with a token of its own.
  have hrule {p : Script (Lexer Kind) Node} {f : Parse (Lexer Kind) Kind Node} {kind : Kind}
      (hkind : w.current.kind = kind) (hend : kind ≠ .endOfText)
      (hp : Follows l (fun _ => True) p f) :
      FollowsAt (fun n => n.isNoOp = true) w (do let _ ← advance; p)
        (do let _ ← Parse.advance; f) :=
    .after_advance hw (isEnd_eq_false (hkind ▸ hend)) hp
  cases hkind : w.current.kind with
  | leftBrace => exact (follows_block hstmt).never hw
  | var => exact hrule hkind (by decide) (follows_declaration hexpr .inferred w.line).never
  | identifier => exact (follows_identifierLed hexpr).never hw
  | func => exact (follows_function hexpr hstmt).never hw
  | typeOf =>
    apply hrule hkind (by decide)
    apply (follows_consume (by decide)).bind
    intro _
    apply hexpr.bind
    intro expr
    exact (follows_consume (by decide)).bind fun _ => follows_done trivial
  | «return» => exact hrule hkind (by decide) (hexpr.bind fun value => follows_done trivial)
  | «if» => exact hrule hkind (by decide) (hbranch w.line).never
  | loop =>
    apply hrule hkind (by decide)
    apply hexpr.bind
    intro count
    exact hstmt.bind fun body => follows_done trivial
  | print => exact hrule hkind (by decide) (hexpr.bind fun value => follows_done trivial)
  | null | integer | float | string | «true» | «false» | leftParen | minus => exact hexpr.never hw
  | _ => exact followsAt_done rfl

theorem statementsFollow (l : Nat) : StatementsFollow l := by
  induction l with
  | zero =>
    have hstatement : Follows 0 (fun n => n.isNoOp = true) Procedure.statement.script
        (Grammar.statement 0) := by
      apply Follows.run
      rw [Grammar.statement]
      exact follows_nested_zero.never
    exact ⟨hstatement, follows_branch (fun m hm => by cases hm) hstatement⟩
  | succ l ih =>
    have hstatement := follows_statement ih
    exact ⟨hstatement, follows_branch (fun m hm => by cases hm; exact ih) hstatement⟩

/-! ### Whole texts -/

namespace Config

variable {σ : Type} [TokenSource σ Kind]

/-- The machine before a text is parsed. -/
def start (w : Window σ Kind) : Config σ Node :=
  ⟨.unit, 0, w⟩

omit [TokenSource σ Kind] in
theorem window_settle {β : Type} (k : β → Script σ α) (opened : Nat)
    (r : EStateM.Result ParseError (Window σ Kind) β) : (settle k opened r).window = landing r := by
  cases r <;> rfl

omit [TokenSource σ Kind] in
theorem depth_enter {w : Window σ Kind} (h : w.depth ≤ nestingLimit) :
    (landing (Parse.enter w)).depth ≤ nestingLimit := by
  unfold Parse.enter
  split
  · rename_i hlt
    exact hlt
  · exact h

/-- No step goes below the limit, whatever script the machine runs. -/
theorem depth_step {c : Config σ α} (h : c.window.depth ≤ nestingLimit) :
    c.step.window.depth ≤ nestingLimit := by
  have hleave : (c.window.leave 1).depth ≤ nestingLimit := Nat.le_trans (Nat.sub_le _ _) h
  obtain ⟨script, opened, w⟩ := c
  cases script with
  | done a => exact h
  | fail e =>
    cases opened with
    | zero => exact h
    | succ opened => exact hleave
  | act i k =>
    change (settle k opened (i.run w)).window.depth ≤ nestingLimit
    rw [window_settle, i.depth_run]
    exact h
  | enter k =>
    change (settle (fun _ => k) opened (Parse.enter w)).window.depth ≤ nestingLimit
    rw [window_settle]
    exact depth_enter h
  | leave k => exact hleave
  | opening k =>
    have henter := depth_enter h
    unfold step
    dsimp only at henter ⊢
    cases hrun : Parse.enter w with
    | ok u v =>
      rw [hrun] at henter
      exact henter
    | error e v =>
      rw [hrun] at henter
      exact henter
  | closing k => exact hleave
  | run p k => exact h
  | loop round b k => exact h

theorem depth_iterate {c : Config σ α} (h : c.window.depth ≤ nestingLimit) (n : Nat) :
    (step^[n] c).window.depth ≤ nestingLimit := by
  induction n generalizing c with
  | zero => exact h
  | succ n ih => exact ih (depth_step h)

end Config

theorem ready_start {text : String} {w : Window (Lexer Kind) Kind}
    (h : Window.start (Lexer.start Vocabulary.console text) = .ok w) : w.Ready nestingLimit := by
  have hstart := Lexer.steady_start Vocabulary.progresses_console text
  unfold Window.start at h
  split at h
  · rename_i t after hnext
    cases h
    exact ⟨(Lexer.next_ok hstart hnext).1, Nat.zero_add _⟩
  · cases h

/-- The end of the text is taken last. It is the one token of which nothing more is asked. -/
theorem runsTo_unit (hw : w.Ready nestingLimit) :
    RunsTo (start w) (settle done 0 (Grammar.unit w)) ∧
      ∀ tree w', Grammar.unit w = .ok tree w' → w'.depth = w.depth := by
  have hstatements := follows_statements (statementsFollow nestingLimit).statement .endOfText hw
  have hfirst : RunsTo (start w) (settle (fun nodes => do
      let _ ← consume .endOfText
      return Node.block nodes w.line) 0
        (Grammar.statements (Grammar.statement nestingLimit) .endOfText w)) :=
    (runsTo_act (i := .look) _ 0 w).trans (hstatements.runs _ (Nat.zero_le _))
  have hunit : Grammar.unit w = (do
      let nodes ← Grammar.statements (Grammar.statement nestingLimit) .endOfText
      let _ ← Parse.consume .endOfText
      return Node.block nodes w.line : Parse (Lexer Kind) Kind Node) w := rfl
  rw [hunit]
  cases hrun : Grammar.statements (Grammar.statement nestingLimit) .endOfText w with
  | error e v =>
    rw [hrun] at hfirst
    rw [bind_of_error hrun]
    refine ⟨hfirst, ?_⟩
    rintro tree w' ⟨⟩
  | ok nodes v =>
    rw [hrun] at hfirst
    rw [bind_of_ok hrun]
    have hdepth := depth_consume .endOfText v
    have hlast := hfirst.trans (runsTo_act (i := .consume .endOfText) _ 0 v)
    change RunsTo _ (settle _ 0 (Parse.consume .endOfText v)) at hlast
    cases hend : Parse.consume .endOfText v with
    | error e u =>
      rw [hend] at hlast
      rw [bind_of_error hend]
      refine ⟨hlast, ?_⟩
      rintro tree w' ⟨⟩
    | ok t u =>
      rw [hend] at hlast hdepth
      rw [bind_of_ok hend]
      refine ⟨hlast, ?_⟩
      rintro tree w' ⟨⟩
      exact hdepth.trans (hstatements.depth hrun)

theorem parse_of_start {text : String} {w : Window (Lexer Kind) Kind}
    (h : Window.start (Lexer.start Vocabulary.console text) = .ok w) :
    (settle done 0 (Grammar.unit w)).result? = some (parse Vocabulary.console text) := by
  cases hrun : Grammar.unit w with
  | ok tree v =>
    simp only [parse, Grammar.parseFrom, h, bind, Except.bind, hrun]
    rfl
  | error e v =>
    simp only [parse, Grammar.parseFrom, h, bind, Except.bind, hrun]
    rfl

theorem statement_of_empty {w : Window (Lexer Kind) Kind} (hdepth : w.depth < nestingLimit)
    (hkind : Derivation.startsStatement w.current.kind = false) :
    Grammar.statement (nestingLimit - w.depth) w = .ok (.noOp w.line) w := by
  obtain ⟨l, hl⟩ := Nat.exists_eq_succ_of_ne_zero (Nat.sub_ne_zero_of_lt hdepth)
  rw [hl, Grammar.statement]
  simp only [Parse.nested, Parse.enter, hdepth, ↓reduceIte, get_bind]
  cases hcurrent : w.current.kind with
  | leftBrace | var | identifier | func | typeOf | «return» | «if» | loop | print | null | integer
  | float | string | «true» | «false» | leftParen | minus =>
    rw [hcurrent] at hkind
    cases hkind
  | _ => rfl

theorem orderly_settle (r : EStateM.Result ParseError (Window (Lexer Kind) Kind) α) :
    (settle done 0 r).step = settle done 0 r ∧ (settle done 0 r).Orderly := by
  cases r with
  | ok a w => exact ⟨rfl, .of_plain rfl (Nat.zero_le _)⟩
  | error e w => exact ⟨rfl, .of_plain rfl (Nat.zero_le _)⟩

theorem step_of_result? {c : Config (Lexer Kind) α} {r : Except ParseError α}
    (h : c.result? = some r) : c.step = c := by
  obtain ⟨script, opened, w⟩ := c
  cases script with
  | done a => rfl
  | fail e =>
    cases opened with
    | zero => rfl
    | succ opened => cases h
  | _ => cases h

theorem result?_of_start {text : String} {w : Window (Lexer Kind) Kind}
    (h : Window.start (Lexer.start Vocabulary.console text) = .ok w) :
    ∃ n, (step^[n] (start w)).result? = some (parse Vocabulary.console text) := by
  obtain ⟨n, hn⟩ := (runsTo_unit (ready_start h)).1.reaches
  refine ⟨n, ?_⟩
  rw [hn]
  exact parse_of_start h

theorem depth_of_tree (hw : w.Ready nestingLimit) {n : Nat} {tree : Node}
    (h : (step^[n] (start w)).result? = some (.ok tree)) :
    (step^[n] (start w)).window.depth = w.depth := by
  obtain ⟨hruns, hdepth⟩ := runsTo_unit hw
  have hend := hruns.reaches.unique ⟨n, rfl⟩ (orderly_settle _).1 (step_of_result? h)
  rw [← hend] at h ⊢
  cases hunit : Grammar.unit w with
  | ok tree' w' => exact hdepth tree' w' hunit
  | error e w' =>
    rw [hunit] at h
    cases h

theorem orderly_of_ready (hw : w.Ready nestingLimit) (n : Nat) : (step^[n] (start w)).Orderly := by
  obtain ⟨hstop, hlast⟩ := orderly_settle (Grammar.unit w)
  exact (runsTo_unit hw).1.orderly hstop hlast n

open Vocabulary in
/-- Parsing ends for every text, with a tree or a failure. Unless the first token cannot be read,
the machine comes to what `parse` gives, although nothing in it counts down. At every point its depth
is at most the limit and everything is in order, and when it has a tree it has come up from all
levels. Wherever they are called, the rules for expressions and statements come back to their level,
and a round of the loop over statements takes a token unless it is the last. The lexer finds each
token in finitely many steps. A statement on its own may be empty and take nothing. -/
theorem parsing_ends_balanced (text : String) :
    ((∃ e, Window.start (Lexer.start console text) = .error e ∧ parse console text = .error e) ∨
      ∃ w, Window.start (Lexer.start console text) = .ok w ∧
        (∃ n, (step^[n] (start w)).result? = some (parse console text)) ∧
        (∀ n tree, (step^[n] (start w)).result? = some (.ok tree) →
          (step^[n] (start w)).window.depth = 0) ∧
        ∀ n, (step^[n] (start w)).window.depth ≤ nestingLimit ∧ (step^[n] (start w)).Orderly) ∧
    (∀ (l : Nat) (w : Window (Lexer Kind) Kind), w.Ready l →
      (∀ node w', Grammar.expression l w = .ok node w' → w'.depth = w.depth) ∧
      (∀ node w', Grammar.statement l w = .ok node w' → w'.depth = w.depth) ∧
      ∀ closing nodes nodes' w',
        Derivation.statementsStep (Grammar.statement l) closing nodes w = .ok (.inl nodes') w' →
          w.Precedes w') ∧
    (∀ c : Cursor, c.position + c.rest.length = text.length →
      console.Scans c (console.scan text.length c)) ∧
    ∀ w : Window (Lexer Kind) Kind, w.depth < nestingLimit →
      Derivation.startsStatement w.current.kind = false →
        Grammar.statement (nestingLimit - w.depth) w = .ok (.noOp w.line) w := by
  refine ⟨?_, ?_, fun c hc => RuleSet.scans_scan progresses_console hc,
    fun w hdepth hkind => statement_of_empty hdepth hkind⟩
  · cases hstart : Window.start (Lexer.start console text) with
    | error e =>
      refine .inl ⟨e, rfl, ?_⟩
      simp only [parse, Grammar.parseFrom, hstart, bind, Except.bind]
    | ok w =>
      have hready := ready_start hstart
      have hzero : w.depth = 0 := Nat.add_eq_right.mp hready.depth
      refine .inr ⟨w, rfl, result?_of_start hstart, ?_, ?_⟩
      · intro n tree htree
        exact (depth_of_tree hready htree).trans hzero
      · intro n
        exact ⟨depth_iterate (hzero ▸ Nat.zero_le _) n, orderly_of_ready hready n⟩
  · intro l w hw
    have hstatement := (statementsFollow l).statement
    refine ⟨?_, ?_, ?_⟩
    · intro node w' h
      exact ((expressionsFollow l).expression hw).depth h
    · intro node w' h
      exact (hstatement hw).depth h
    · intro closing nodes nodes' w' h
      exact ((follows_statementsStep hstatement closing nodes hw).takes h).resolve_right And.right

/-- A text that starts with a separator and goes five levels down. -/
theorem parsing_ends_balanced_minus :
    ∃ w, Window.start (Lexer.start Vocabulary.console ";print -(1 + 2)") = .ok w ∧
      w.Ready nestingLimit ∧
      ∃ n, (step^[n] (start w)).result? = some (.ok (.block
        [.print (.negation (.binary (.literal (.int 1) 1) .add (.literal (.int 2) 1) 1) 1) 1] 1)) ∧
        (step^[n] (start w)).window.depth = 0 := by
  have hparse : parse Vocabulary.console ";print -(1 + 2)" = .ok (.block
      [.print (.negation (.binary (.literal (.int 1) 1) .add (.literal (.int 2) 1) 1) 1) 1] 1) := by
    cbv
  obtain ⟨hends, -⟩ := parsing_ends_balanced ";print -(1 + 2)"
  rw [hparse] at hends
  rcases hends with ⟨e, -, herror⟩ | ⟨w, hstart, ⟨n, hresult⟩, hdepth, -⟩
  · cases herror
  · exact ⟨w, hstart, ready_start hstart, n, hresult, hdepth n _ hresult⟩

end ConsoleScript
