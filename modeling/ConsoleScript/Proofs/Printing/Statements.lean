import ConsoleScript.Proofs.Printing.Expressions

/-!
# Printed statements are derived

The tokens of a printed statement derive its tree wherever a semicolon, a closing brace or the end
of the text follows.
-/

namespace ConsoleScript.Printing

open ConsoleScript.Derivation

mutual

/-- The levels of nesting that the derivation of a statement goes down. -/
def Stmt.levels : Stmt → Nat
  | .typed _ _ _ none => 1
  | .inferred _ _ value | .typed _ _ _ (some value) | .assignment _ value => value.levels .sum + 2
  | .call _ args => argumentLevels args + 1
  | .function _ _ _ body | .block body => statementLevels body + 1
  | .branch condition body other =>
    max (condition.levels .sum + 1) (max (statementLevels body + 1) other.levels) + 1
  | .loop count body => max (count.levels .sum + 1) (statementLevels body + 1) + 1
  | .print value | .typeOf value | .returning value => value.levels .sum + 2
  | .expression value => value.levels .sum + 3

def Alternative.levels : Alternative → Nat
  | .none => 0
  | .otherwise body => statementLevels body + 1
  | .branch condition body other =>
    max (condition.levels .sum + 1) (max (statementLevels body + 1) other.levels) + 1

def statementLevels : List Stmt → Nat
  | [] => 0
  | s :: ss => max s.levels (statementLevels ss)

end

def EndsStatement (kind : Kind) : Prop :=
  kind = .semicolon ∨ kind = .rightBrace ∨ kind = .endOfText

theorem EndsStatement.ends {kind : Kind} (h : EndsStatement kind) : Ends kind := by
  rcases h with rfl | rfl | rfl <;> exact ⟨by decide, rfl, rfl⟩

theorem ahead_imp {p q : Kind → Prop} {rest : Tokens} (h : Ahead p rest)
    (hpq : ∀ {kind}, p kind → q kind) : Ahead q rest :=
  fun t ht => hpq (h t ht)

def StatementDerived (s : Stmt) : Prop :=
  ∀ ts, Spells ts s.words → ∃ n, n.unlined = s.toNode ∧
    ∀ l, s.levels ≤ l → ∀ rest, Ahead EndsStatement rest → Statement l (ts ++ rest) n rest

def StatementsDerived (body : List Stmt) : Prop :=
  ∀ ts, Spells ts (separated .semicolon (statementWords body)) →
    ∃ nodes, unlinedNodes nodes = statementNodes body ∧
      ∀ l, statementLevels body ≤ l → ∀ closing t rest, EndsStatement closing →
        closing ≠ .semicolon → t.kind = closing →
          Statements l closing (ts ++ t :: rest) nodes (t :: rest)

/-- The condition and the bodies of an `if` whose first word has been taken. -/
def BranchDerived (condition : Expr) (body : List Stmt) (other : Alternative) : Prop :=
  ∀ ts, Spells ts (inParens (condition.words .sum) ++ inBlock (statementWords body) ++
    other.words) → ∀ line, ∃ n,
      n.unlined = .branch condition.toNode (.block (statementNodes body) 0) other.toNode? 0 ∧
      ∀ l, max (condition.levels .sum + 1) (max (statementLevels body + 1) other.levels) ≤ l →
        ∀ rest, Ahead EndsStatement rest → Branch l line (ts ++ rest) n rest

/-! ### Lists of statements -/

theorem StatementsDerived.nil : StatementsDerived [] := by
  intro ts hts
  cases hts.nil_inv
  exact ⟨[], rfl, fun l _ closing t rest _ _ ht => .done ht⟩

/-- A statement does not begin with a token that may stand behind one. -/
theorem Stmt.exists_head (s : Stmt) :
    ∃ w words, s.words = w :: words ∧ ¬ EndsStatement (w.token 0).kind := by
  cases s with
  | typed type first others value =>
    cases value <;> exact ⟨_, _, rfl, by simp [EndsStatement, Word.token]⟩
  | _ => exact ⟨_, _, rfl, by simp [EndsStatement, Word.token, Mark.kind]⟩

theorem Stmt.exists_first (s : Stmt) {ts : Tokens} (hts : Spells ts s.words) :
    ∃ t ts', ts = t :: ts' ∧ ¬ EndsStatement t.kind := by
  obtain ⟨w, words, hwords, hw⟩ := s.exists_head
  rw [hwords] at hts
  obtain ⟨t, ts', rfl, ht, _⟩ := hts.cons_inv
  have hkind : t.unlined.kind = (w.token 0).kind := congrArg Token.kind ht
  exact ⟨t, ts', rfl, hkind ▸ hw⟩

theorem StatementsDerived.cons {s : Stmt} {ss : List Stmt} (hs : StatementDerived s)
    (hss : StatementsDerived ss) : StatementsDerived (s :: ss) := by
  intro ts hts
  cases ss with
  | nil =>
    have hts : Spells ts s.words := hts
    obtain ⟨n, hn, hstatement⟩ := hs ts hts
    obtain ⟨t, ts, rfl, hfirst⟩ := s.exists_first hts
    refine ⟨[n], by simp [unlinedNodes, statementNodes, hn], ?_⟩
    intro l hl closing u rest hcloses _ hu
    have hends : EndsStatement u.kind := hu ▸ hcloses
    have hstatement := hstatement l (Nat.max_le.mp hl).1 (u :: rest) (ahead_of_kind rfl hends)
    refine .statement ⟨fun h => hfirst (.inl h), fun h => hfirst (h ▸ hcloses)⟩ hstatement
      (.inr (.inl hu)) (.done hu)
  | cons s' ss =>
    have hts : Spells ts (s.words ++
        .mark .semicolon :: separated .semicolon (statementWords (s' :: ss))) := hts
    obtain ⟨a, b, rfl, ha, hb⟩ := hts.append_inv
    obtain ⟨semicolon, b, rfl, hsemicolon, hb⟩ := hb.mark_cons_inv
    obtain ⟨n, hn, hstatement⟩ := hs a ha
    obtain ⟨nodes, hnodes, hstatements⟩ := hss b hb
    obtain ⟨t, a, rfl, hfirst⟩ := s.exists_first ha
    refine ⟨n :: nodes, by simp [unlinedNodes, statementNodes, hn, hnodes], ?_⟩
    intro l hl closing u rest hcloses hne hu
    obtain ⟨hle, hle'⟩ := Nat.max_le.mp hl
    have hmore := hstatements l hle' closing u rest hcloses hne hu
    have hstatement := hstatement l hle (semicolon :: (b ++ u :: rest))
      (ahead_of_kind hsemicolon (.inl rfl))
    rw [List.append_assoc, List.cons_append]
    exact .statement ⟨fun h => hfirst (.inl h), fun h => hfirst (h ▸ hcloses)⟩ hstatement
      (.inl hsemicolon) (.semicolon hsemicolon hmore)

theorem StatementsDerived.block {body : List Stmt} (h : StatementsDerived body) {ts : Tokens}
    (hts : Spells ts (inBlock (statementWords body))) :
    ∃ n, n.unlined = .block (statementNodes body) 0 ∧
      ∀ l, statementLevels body ≤ l → ∀ rest, Block l (ts ++ rest) n rest := by
  obtain ⟨opening, ts, rfl, hopens, hts⟩ := hts.mark_cons_inv
  obtain ⟨inner, last, rfl, hinner, hlast⟩ := hts.append_inv
  obtain ⟨closing, last, rfl, hcloses, hlast⟩ := hlast.mark_cons_inv
  cases hlast.nil_inv
  obtain ⟨nodes, hnodes, hstatements⟩ := h inner hinner
  refine ⟨.block nodes opening.line, by simp [Node.unlined, hnodes], fun l hl rest => ?_⟩
  have hall := hstatements l hl .rightBrace closing rest (.inr (.inl rfl)) (by decide) hcloses
  rw [List.cons_append, List.append_assoc]
  exact .braces hopens hall hcloses

/-! ### Names and parameters -/

theorem names_derived {first : Name} {others : List Name} {ts : Tokens}
    (hts : Spells ts (nameWords (first :: others))) (rest : Tokens)
    (hrest : Ahead (· ≠ .comma) rest) :
    Names (ts ++ rest) (first.text :: others.map Name.text) rest := by
  induction others generalizing first ts with
  | nil =>
    obtain ⟨t, ts, rfl, hnamed, hts⟩ := hts.name_cons_inv
    cases hts.nil_inv
    exact .last hnamed hrest
  | cons next others ih =>
    have hts : Spells ts (.name first :: .mark .comma :: nameWords (next :: others)) := hts
    obtain ⟨t, ts, rfl, hnamed, hts⟩ := hts.name_cons_inv
    obtain ⟨comma, ts, rfl, hcomma, hts⟩ := hts.mark_cons_inv
    exact .more hnamed hcomma (ih hts)

theorem parameterList_derived {param : Name × Name} {params : List (Name × Name)} {ts : Tokens}
    (hts : Spells ts (parameterWords (param :: params))) {closing : Token Kind} {rest : Tokens}
    (hcloses : closing.kind = .rightParen) :
    ParameterList (ts ++ closing :: rest) ((param :: params).map parameterOf) rest := by
  induction params generalizing param ts with
  | nil =>
    obtain ⟨t, ts, rfl, htype, hts⟩ := hts.name_cons_inv
    obtain ⟨u, ts, rfl, hnamed, hts⟩ := hts.name_cons_inv
    cases hts.nil_inv
    exact .last (.typed htype hnamed) hcloses
  | cons next params ih =>
    have hts : Spells ts (.name param.1 :: .name param.2 ::
        .mark .comma :: parameterWords (next :: params)) := hts
    obtain ⟨t, ts, rfl, htype, hts⟩ := hts.name_cons_inv
    obtain ⟨u, ts, rfl, hnamed, hts⟩ := hts.name_cons_inv
    obtain ⟨comma, ts, rfl, hcomma, hts⟩ := hts.mark_cons_inv
    exact .more (.typed htype hnamed) hcomma (ih hts)

theorem parameters_derived {params : List (Name × Name)} {ts : Tokens}
    (hts : Spells ts (parameterWords params)) {closing : Token Kind}
    (hcloses : closing.kind = .rightParen) (rest : Tokens) :
    Parameters (ts ++ closing :: rest) (params.map parameterOf) rest := by
  cases params with
  | nil =>
    cases hts.nil_inv
    exact .none hcloses
  | cons param params => exact .some (parameterList_derived hts hcloses)

/-! ### Branches -/

theorem StatementsDerived.statement {body : List Stmt} (h : StatementsDerived body) {ts : Tokens}
    (hts : Spells ts (inBlock (statementWords body))) :
    ∃ n, n.unlined = .block (statementNodes body) 0 ∧
      ∀ l, statementLevels body + 1 ≤ l → ∀ rest, Statement l (ts ++ rest) n rest := by
  obtain ⟨n, hn, hblock⟩ := h.block hts
  refine ⟨n, hn, fun l hl rest => ?_⟩
  obtain ⟨m, rfl, hm⟩ := exists_succ_of_le hl
  exact .block (hblock m hm rest)

theorem branch_front (condition : Expr) {body : List Stmt} (hbody : StatementsDerived body)
    {ts : Tokens}
    (hts : Spells ts (inParens (condition.words .sum) ++ inBlock (statementWords body))) :
    ∃ opening closing inner tail test n, ts = opening :: (inner ++ closing :: tail) ∧
      opening.kind = .leftParen ∧ closing.kind = .rightParen ∧ test.unlined = condition.toNode ∧
      n.unlined = .block (statementNodes body) 0 ∧
      ∀ l, condition.levels .sum + 1 ≤ l → statementLevels body + 1 ≤ l → ∀ rest,
        Expression l (inner ++ closing :: (tail ++ rest)) test (closing :: (tail ++ rest)) ∧
          Statement l (tail ++ rest) n rest := by
  obtain ⟨a, tail, rfl, ha, htail⟩ := hts.append_inv
  obtain ⟨opening, inner, closing, rfl, hopens, hinner, hcloses⟩ := ha.inParens_inv
  obtain ⟨test, htest, hexpression⟩ := condition.derived.expression inner hinner
  obtain ⟨n, hn, hstatement⟩ := hbody.statement htail
  refine ⟨opening, closing, inner, tail, test, n, by simp, hopens, hcloses, htest, hn, ?_⟩
  intro l hl hl' rest
  exact ⟨hexpression l hl _ (ahead_of_kind hcloses ⟨by decide, rfl, rfl⟩), hstatement l hl' rest⟩

theorem branch_none (condition : Expr) {body : List Stmt} (hbody : StatementsDerived body) :
    BranchDerived condition body .none := by
  intro ts hts line
  rw [Alternative.words, List.append_nil] at hts
  obtain ⟨opening, closing, inner, tail, test, n, rfl, hopens, hcloses, htest, hn, hfront⟩ :=
    branch_front condition hbody hts
  refine ⟨.branch test n none line,
    by simp [Node.unlined, unlinedOption, htest, hn, Alternative.toNode?], ?_⟩
  intro l hl rest hrest
  simp only [Nat.max_le] at hl
  obtain ⟨hcondition, hthen⟩ := hfront l hl.1 hl.2.1 rest
  rw [List.cons_append, List.append_assoc, List.cons_append]
  refine .single hopens hcondition hcloses hthen (ahead_imp hrest ?_)
  rintro kind (rfl | rfl | rfl) <;> decide

theorem branch_otherwise (condition : Expr) {body other : List Stmt}
    (hbody : StatementsDerived body) (hother : StatementsDerived other) :
    BranchDerived condition body (.otherwise other) := by
  intro ts hts line
  obtain ⟨a, b, rfl, ha, hb⟩ := hts.append_inv
  obtain ⟨splits, b, rfl, hsplits, hb⟩ := hb.mark_cons_inv
  obtain ⟨opening, closing, inner, tail, test, n, rfl, hopens, hcloses, htest, hn, hfront⟩ :=
    branch_front condition hbody ha
  obtain ⟨n', hn', hstatement⟩ := hother.statement hb
  obtain ⟨brace, b, rfl, hbrace, _⟩ := hb.mark_cons_inv
  refine ⟨.branch test n (some n') line,
    by simp [Node.unlined, unlinedOption, htest, hn, hn', Alternative.toNode?], ?_⟩
  intro l hl rest _
  simp only [Nat.max_le, Alternative.levels] at hl
  obtain ⟨hcondition, hthen⟩ := hfront l hl.1 hl.2.1 (splits :: brace :: (b ++ rest))
  have helse := hstatement l hl.2.2 rest
  simp only [List.cons_append, List.append_assoc] at hcondition hthen helse ⊢
  exact .otherwise hopens hcondition hcloses hthen hsplits (by simp [hbrace, Mark.kind]) helse

theorem branch_chained (condition : Expr) {condition' : Expr} {body body' : List Stmt}
    {other : Alternative} (hbody : StatementsDerived body)
    (hother : BranchDerived condition' body' other) :
    BranchDerived condition body (.branch condition' body' other) := by
  intro ts hts line
  obtain ⟨a, b, rfl, ha, hb⟩ := hts.append_inv
  obtain ⟨splits, b, rfl, hsplits, hb⟩ := hb.mark_cons_inv
  obtain ⟨again, b, rfl, hagain, hb⟩ := hb.mark_cons_inv
  obtain ⟨opening, closing, inner, tail, test, n, rfl, hopens, hcloses, htest, hn, hfront⟩ :=
    branch_front condition hbody ha
  obtain ⟨n', hn', hbranch⟩ := hother b hb again.line
  refine ⟨.branch test n (some n') line,
    by simp [Node.unlined, unlinedOption, htest, hn, hn', Alternative.toNode?], ?_⟩
  intro l hl rest hrest
  obtain ⟨hl, hle, hother_le⟩ : condition.levels .sum + 1 ≤ l ∧ statementLevels body + 1 ≤ l ∧
      max (condition'.levels .sum + 1) (max (statementLevels body' + 1) other.levels) + 1 ≤ l := by
    simpa only [Nat.max_le, Alternative.levels] using hl
  -- The second `if` is read one level below the first.
  obtain ⟨m, rfl, hm⟩ := exists_succ_of_le hother_le
  obtain ⟨hcondition, hthen⟩ := hfront (m + 1) hl hle (splits :: again :: (b ++ rest))
  have helse := hbranch m hm rest hrest
  simp only [List.cons_append, List.append_assoc] at hcondition hthen ⊢
  exact .chained hopens hcondition hcloses hthen hsplits hagain helse

/-! ### The other statements -/

theorem Expr.derived_last (e : Expr) {ts : Tokens} (hts : Spells ts (e.words .sum)) :
    ∃ n, n.unlined = e.toNode ∧
      ∀ l, e.levels .sum + 2 ≤ l + 1 → ∀ rest, Ahead EndsStatement rest →
        Expression l (ts ++ rest) n rest := by
  obtain ⟨n, hn, hexpression⟩ := e.derived.expression ts hts
  exact ⟨n, hn, fun l hl rest hrest =>
    hexpression l (Nat.le_of_succ_le_succ hl) rest (ahead_imp hrest EndsStatement.ends)⟩

theorem initialized_derived {first : Name} {others : List Name} {value : Expr} {ts : Tokens}
    (hts : Spells ts (nameWords (first :: others) ++ .mark .assign :: value.words .sum)) :
    ∃ n, n.unlined = value.toNode ∧
      ∀ l, value.levels .sum + 1 ≤ l → ∀ declared line rest, Ahead EndsStatement rest →
        Declaration l declared line (ts ++ rest)
          (.declaration declared (first.text :: others.map Name.text) (some n) line) rest := by
  obtain ⟨a, b, rfl, ha, hb⟩ := hts.append_inv
  obtain ⟨equals, b, rfl, hequals, hb⟩ := hb.mark_cons_inv
  obtain ⟨n, hn, hexpression⟩ := value.derived.expression b hb
  refine ⟨n, hn, fun l hl declared line rest hrest => ?_⟩
  rw [List.append_assoc, List.cons_append]
  exact .initialized (names_derived ha _ (ahead_of_kind hequals (by decide))) hequals
    (hexpression l hl rest (ahead_imp hrest EndsStatement.ends))

theorem inferred_derived (first : Name) (others : List Name) (value : Expr) :
    StatementDerived (.inferred first others value) := by
  intro ts hts
  obtain ⟨t, ts, rfl, hvar, hts⟩ := Spells.mark_cons_inv hts
  obtain ⟨n, hn, hdeclaration⟩ := initialized_derived hts
  refine ⟨.declaration .inferred (first.text :: others.map Name.text) (some n) t.line,
    by simp [Node.unlined, unlinedOption, Stmt.toNode, hn], fun l hl rest hrest => ?_⟩
  obtain ⟨m, rfl, hm⟩ := exists_succ_of_le hl
  exact .inferred hvar (hdeclaration m hm .inferred t.line rest hrest)

theorem nameWords_head (first : Name) (others : List Name) :
    ∃ words, nameWords (first :: others) = .name first :: words := by
  cases others <;> exact ⟨_, rfl⟩

theorem typed_derived (type first : Name) (others : List Name) (value : Option Expr) :
    StatementDerived (.typed type first others value) := by
  intro ts hts
  obtain ⟨words, hwords⟩ := nameWords_head first others
  cases value with
  | none =>
    obtain ⟨t, ts, rfl, hnamed, hts⟩ := Spells.name_cons_inv hts
    have hnames := names_derived hts
    rw [hwords] at hts
    obtain ⟨u, ts, rfl, hfirst, _⟩ := hts.name_cons_inv
    refine ⟨.declaration (.named type.text) (first.text :: others.map Name.text) none t.line,
      rfl, fun l hl rest hrest => ?_⟩
    obtain ⟨m, rfl, _⟩ := exists_succ_of_le hl
    refine .declaration hnamed hfirst.1 (.plain (hnames rest (ahead_imp hrest ?_))
      (ahead_imp hrest ?_))
    · rintro kind (rfl | rfl | rfl) <;> decide
    · rintro kind (rfl | rfl | rfl) <;> decide
  | some value =>
    obtain ⟨t, ts, rfl, hnamed, hts⟩ := Spells.name_cons_inv hts
    obtain ⟨n, hn, hdeclaration⟩ := initialized_derived hts
    rw [hwords] at hts
    obtain ⟨u, ts, rfl, hfirst, _⟩ := Spells.name_cons_inv hts
    refine ⟨.declaration (.named type.text) (first.text :: others.map Name.text) (some n) t.line,
      by simp [Node.unlined, unlinedOption, Stmt.toNode, hn], fun l hl rest hrest => ?_⟩
    obtain ⟨m, rfl, hm⟩ := exists_succ_of_le hl
    exact .declaration hnamed hfirst.1 (hdeclaration m hm (.named type.text) t.line rest hrest)

theorem assignment_derived (target : Name) (value : Expr) :
    StatementDerived (.assignment target value) := by
  intro ts hts
  obtain ⟨t, ts, rfl, hnamed, hts⟩ := Spells.name_cons_inv hts
  obtain ⟨equals, ts, rfl, hequals, hts⟩ := hts.mark_cons_inv
  obtain ⟨n, hn, hexpression⟩ := value.derived_last hts
  refine ⟨.assignment (.variable target.text t.line) n t.line,
    by simp [Node.unlined, Stmt.toNode, hn], fun l hl rest hrest => ?_⟩
  obtain ⟨m, rfl, _⟩ := exists_succ_of_le hl
  exact .assignment hnamed hequals (hexpression m hl rest hrest)

theorem call_statement_derived (f : Name) (args : List Expr) : StatementDerived (.call f args) := by
  intro ts hts
  obtain ⟨t, ts, rfl, hnamed, hts⟩ := Spells.name_cons_inv hts
  obtain ⟨opening, inner, closing, rfl, hopens, hinner, hcloses⟩ := hts.inParens_inv
  obtain ⟨nodes, hnodes, harguments⟩ :=
    arguments_derived (fun x hx => (argumentsDerived args x hx).expression) hinner
  refine ⟨.call f.text nodes t.line, by simp [Node.unlined, Stmt.toNode, hnodes],
    fun l hl rest _ => ?_⟩
  obtain ⟨m, rfl, hm⟩ := exists_succ_of_le hl
  have hall := harguments m hm closing rest hcloses
  rw [List.cons_append, List.cons_append, List.append_assoc]
  exact .call hnamed hopens hall

theorem function_derived (returnType f : Name) (params : List (Name × Name)) {body : List Stmt}
    (hbody : StatementsDerived body) : StatementDerived (.function returnType f params body) := by
  intro ts hts
  obtain ⟨t, ts, rfl, hfunc, hts⟩ := Spells.mark_cons_inv hts
  obtain ⟨r, ts, rfl, htype, hts⟩ := hts.name_cons_inv
  obtain ⟨u, ts, rfl, hnamed, hts⟩ := hts.name_cons_inv
  obtain ⟨a, b, rfl, ha, hb⟩ := hts.append_inv
  obtain ⟨opening, inner, closing, rfl, hopens, hinner, hcloses⟩ := ha.inParens_inv
  obtain ⟨n, hn, hblock⟩ := hbody.block hb
  refine ⟨.function f.text returnType.text (params.map parameterOf) n t.line,
    by simp [Node.unlined, Stmt.toNode, hn], fun l hl rest _ => ?_⟩
  obtain ⟨m, rfl, hm⟩ := exists_succ_of_le hl
  have hparameters := parameters_derived hinner hcloses (b ++ rest)
  simp only [List.cons_append, List.append_assoc, List.nil_append]
  exact .function hfunc htype hnamed hopens hparameters (.block (hblock m hm rest))

theorem loop_derived (count : Expr) {body : List Stmt} (hbody : StatementsDerived body) :
    StatementDerived (.loop count body) := by
  intro ts hts
  obtain ⟨t, ts, rfl, hloop, hts⟩ := Spells.mark_cons_inv hts
  obtain ⟨a, b, rfl, ha, hb⟩ := hts.append_inv
  obtain ⟨times, htimes, hexpression⟩ := count.derived.expression a ha
  obtain ⟨n, hn, hstatement⟩ := hbody.statement hb
  obtain ⟨brace, b, rfl, hbrace, _⟩ := hb.mark_cons_inv
  refine ⟨.loop times n t.line, by simp [Node.unlined, Stmt.toNode, htimes, hn],
    fun l hl rest _ => ?_⟩
  obtain ⟨m, rfl, hm⟩ := exists_succ_of_le hl
  obtain ⟨hle, hle'⟩ := Nat.max_le.mp hm
  rw [List.cons_append, List.append_assoc]
  exact .loop hloop (hexpression m hle _ (ahead_of_kind hbrace ⟨by decide, rfl, rfl⟩))
    (hstatement m hle' rest)

theorem print_derived (value : Expr) : StatementDerived (.print value) := by
  intro ts hts
  obtain ⟨t, ts, rfl, hprint, hts⟩ := Spells.mark_cons_inv hts
  obtain ⟨n, hn, hexpression⟩ := value.derived_last hts
  refine ⟨.print n t.line, by simp [Node.unlined, Stmt.toNode, hn], fun l hl rest hrest => ?_⟩
  obtain ⟨m, rfl, _⟩ := exists_succ_of_le hl
  exact .print hprint (hexpression m hl rest hrest)

theorem returning_derived (value : Expr) : StatementDerived (.returning value) := by
  intro ts hts
  obtain ⟨t, ts, rfl, hreturn, hts⟩ := Spells.mark_cons_inv hts
  obtain ⟨n, hn, hexpression⟩ := value.derived_last hts
  refine ⟨.returning n t.line, by simp [Node.unlined, Stmt.toNode, hn], fun l hl rest hrest => ?_⟩
  obtain ⟨m, rfl, _⟩ := exists_succ_of_le hl
  exact .returning hreturn (hexpression m hl rest hrest)

theorem typeOf_derived (value : Expr) : StatementDerived (.typeOf value) := by
  intro ts hts
  obtain ⟨t, ts, rfl, htypeOf, hts⟩ := Spells.mark_cons_inv hts
  obtain ⟨opening, inner, closing, rfl, hopens, hinner, hcloses⟩ := hts.inParens_inv
  obtain ⟨n, hn, hexpression⟩ := value.derived.expression inner hinner
  refine ⟨.typeOf n t.line, by simp [Node.unlined, Stmt.toNode, hn], fun l hl rest _ => ?_⟩
  obtain ⟨m, rfl, hm⟩ := exists_succ_of_le hl
  have hall := hexpression m hm (closing :: rest) (ahead_of_kind hcloses ⟨by decide, rfl, rfl⟩)
  rw [List.cons_append, List.cons_append, List.append_assoc]
  exact .typeOf htypeOf hopens hall hcloses

theorem expression_statement_derived (value : Expr) : StatementDerived (.expression value) := by
  intro ts hts
  obtain ⟨opening, inner, closing, rfl, hopens, hinner, hcloses⟩ := Spells.inParens_inv hts
  obtain ⟨n, hn, hexpression⟩ := value.derived.expression inner hinner
  refine ⟨n, hn, fun l hl rest hrest => ?_⟩
  obtain ⟨k, rfl, hk⟩ := exists_succ_of_le hl
  obtain ⟨m, rfl, hm⟩ := exists_succ_of_le hk
  have hall := hexpression m hm (closing :: rest) (ahead_of_kind hcloses ⟨by decide, rfl, rfl⟩)
  have hends := ahead_imp hrest EndsStatement.ends
  -- The parentheses make one operand of the expression, whatever operators are inside.
  rw [List.cons_append, List.append_assoc]
  refine .expression (by rw [hopens]; rfl) (.sum (.operands (.product (.operands (.unary (.primary
    (.parens hopens hall hcloses))) (.stop ?_))) (.stop ?_)))
  · exact ahead_imp hends fun h => h.2.2
  · exact ahead_imp hends fun h => h.2.1

mutual

theorem Stmt.derived : (s : Stmt) → StatementDerived s
  | .inferred first others value => inferred_derived first others value
  | .typed type first others value => typed_derived type first others value
  | .assignment target value => assignment_derived target value
  | .call f args => call_statement_derived f args
  | .function returnType f params body => function_derived returnType f params (bodyDerived body)
  | .block body => fun _ hts => by
    obtain ⟨n, hn, hstatement⟩ := (bodyDerived body).statement hts
    exact ⟨n, hn, fun l hl rest _ => hstatement l hl rest⟩
  | .branch condition body other => fun _ hts => by
    obtain ⟨t, ts, rfl, hif, hts⟩ := Spells.mark_cons_inv hts
    obtain ⟨n, hn, hbranch⟩ := other.derived condition (bodyDerived body) ts hts t.line
    refine ⟨n, hn, fun l hl rest hrest => ?_⟩
    obtain ⟨m, rfl, hm⟩ := exists_succ_of_le hl
    exact .branch hif (hbranch m hm rest hrest)
  | .loop count body => loop_derived count (bodyDerived body)
  | .print value => print_derived value
  | .typeOf value => typeOf_derived value
  | .returning value => returning_derived value
  | .expression value => expression_statement_derived value

theorem Alternative.derived : (other : Alternative) → ∀ (condition : Expr) {body : List Stmt},
    StatementsDerived body → BranchDerived condition body other
  | .none, condition, _, hbody => branch_none condition hbody
  | .otherwise body, condition, _, hbody => branch_otherwise condition hbody (bodyDerived body)
  | .branch condition' body other, condition, _, hbody =>
    branch_chained condition hbody (other.derived condition' (bodyDerived body))

theorem bodyDerived : (body : List Stmt) → StatementsDerived body
  | [] => .nil
  | s :: ss => .cons s.derived (bodyDerived ss)

end

end ConsoleScript.Printing
