import ConsoleScript.Proofs.Token.Joining

/-!
# The longest key is tried first

The rules of a language are put in order once, by the length of their keys, and at each place the
first that applies is run. Here that is said of the rules as they were given: of the rules with a
key that apply, the one with the longest key is run, and of several such the first; a rule without a
key is run only where no rule with a key applies.
-/

namespace ConsoleScript

open Text

variable {κ : Type}

namespace RuleSet

/-! ### The order of the rules -/

variable {p : Rule κ → Bool} {q r s : Rule κ} {rules : List (Rule κ)}

theorem find?_insertByKey_of_not (hq : p q = false) (rules : List (Rule κ)) :
    (insertByKey q rules).find? p = rules.find? p := by
  induction rules with
  | nil => simp [insertByKey, hq]
  | cons t rest ih =>
    rw [insertByKey]
    split
    · rw [List.find?_cons_of_neg (by simp [hq])]
    · rw [List.find?_cons, ih, List.find?_cons]

theorem find?_insertByKey_of_none (hq : p q = true) (h : rules.find? p = none) :
    (insertByKey q rules).find? p = some q := by
  induction rules with
  | nil => simp [insertByKey, hq]
  | cons t rest ih =>
    obtain ⟨ht, hrest⟩ := List.forall_mem_cons.mp (List.find?_eq_none.mp h)
    rw [insertByKey]
    split
    · exact List.find?_cons_of_pos hq
    · rw [List.find?_cons_of_neg ht, ih (List.find?_eq_none.mpr hrest)]

/-- Of two rules that apply, the one with the longer key comes first, and the new one if their keys
are equally long. -/
theorem find?_insertByKey_of_some (hq : p q = true) (h : rules.find? p = some s)
    (hsorted : rules.Pairwise fun a b => b.keyLength ≤ a.keyLength) :
    (insertByKey q rules).find? p = some (if s.keyLength ≤ q.keyLength then q else s) := by
  induction rules with
  | nil => cases h
  | cons t rest ih =>
    obtain ⟨ht, hrest⟩ := List.pairwise_cons.mp hsorted
    rw [insertByKey]
    split
    · rename_i hle
      have hs : s.keyLength ≤ t.keyLength := by
        rcases List.mem_cons.mp (List.mem_of_find?_eq_some h) with rfl | hs
        · exact Nat.le_refl _
        · exact ht s hs
      rw [List.find?_cons_of_pos hq, if_pos (Nat.le_trans hs hle)]
    · rename_i hlt
      by_cases hpt : p t
      · rw [List.find?_cons_of_pos hpt] at h ⊢
        cases h
        rw [if_neg hlt]
      · rw [List.find?_cons_of_neg hpt] at h ⊢
        exact ih h hrest

/-- Among the rules as they were given, this one satisfies `p` and has the longest key of those that
do. It is the first of them. -/
def Foremost (p : Rule κ → Bool) (rules : List (Rule κ)) (r : Rule κ) : Prop :=
  ∃ before behind, rules = before ++ r :: behind ∧ p r ∧
    (∀ s ∈ before, p s → s.keyLength < r.keyLength) ∧
    ∀ s ∈ behind, p s → s.keyLength ≤ r.keyLength

theorem Foremost.le (h : Foremost p rules r) : ∀ s ∈ rules, p s → s.keyLength ≤ r.keyLength := by
  obtain ⟨before, behind, rfl, _, hbefore, hbehind⟩ := h
  intro s hs hps
  rcases List.mem_append.mp hs with hs | hs
  · exact Nat.le_of_lt (hbefore s hs hps)
  · rcases List.mem_cons.mp hs with rfl | hs
    · exact Nat.le_refl _
    · exact hbehind s hs hps

theorem Foremost.cons (h : Foremost p rules r) (hq : p q → q.keyLength < r.keyLength) :
    Foremost p (q :: rules) r := by
  obtain ⟨before, behind, rfl, hr, hbefore, hbehind⟩ := h
  exact ⟨q :: before, behind, rfl, hr, List.forall_mem_cons.mpr ⟨hq, hbefore⟩, hbehind⟩

theorem foremost_head (hq : p q = true) (h : ∀ s ∈ rules, p s → s.keyLength ≤ q.keyLength) :
    Foremost p (q :: rules) q :=
  ⟨[], rules, rfl, hq, by simp, h⟩

theorem find?_orderByKey_eq_none : (orderByKey rules).find? p = none ↔ ∀ s ∈ rules, ¬ p s := by
  simp only [List.find?_eq_none, (orderByKey_perm rules).mem_iff]

theorem foremost_of_find? (h : (orderByKey rules).find? p = some r) : Foremost p rules r := by
  induction rules generalizing r with
  | nil => cases h
  | cons q rules ih =>
    change (insertByKey q (orderByKey rules)).find? p = some r at h
    cases hq : p q with
    | false =>
      rw [find?_insertByKey_of_not hq] at h
      exact (ih h).cons (by simp [hq])
    | true =>
      cases hfirst : (orderByKey rules).find? p with
      | none =>
        rw [find?_insertByKey_of_none hq hfirst] at h
        cases h
        refine foremost_head hq fun s hs hps => ?_
        exact absurd hps (find?_orderByKey_eq_none.mp hfirst s hs)
      | some s =>
        rw [find?_insertByKey_of_some hq hfirst (pairwise_orderByKey rules)] at h
        split at h
        · rename_i hle
          cases h
          exact foremost_head hq fun t ht hpt => Nat.le_trans ((ih hfirst).le t ht hpt) hle
        · rename_i hlt
          cases h
          exact (ih hfirst).cons fun _ => Nat.lt_of_not_le hlt

theorem find?_of_foremost (h : Foremost p rules r) : (orderByKey rules).find? p = some r := by
  obtain ⟨before, behind, rfl, hr, hbefore, hbehind⟩ := h
  induction before with
  | nil =>
    change (insertByKey r (orderByKey behind)).find? p = some r
    cases hfirst : (orderByKey behind).find? p with
    | none => exact find?_insertByKey_of_none hr hfirst
    | some s =>
      have hs : s ∈ behind := (orderByKey_perm behind).mem_iff.mp (List.mem_of_find?_eq_some hfirst)
      have hle := hbehind s hs (List.find?_some hfirst)
      rw [find?_insertByKey_of_some hr hfirst (pairwise_orderByKey behind), if_pos hle]
  | cons q before ih =>
    obtain ⟨hq, hbefore⟩ := List.forall_mem_cons.mp hbefore
    have hrest := ih hbefore
    change (insertByKey q (orderByKey (before ++ r :: behind))).find? p = some r
    cases hpq : p q with
    | false => rw [find?_insertByKey_of_not hpq, hrest]
    | true =>
      rw [find?_insertByKey_of_some hpq hrest (pairwise_orderByKey _),
        if_neg (Nat.not_le.mpr (hq hpq))]

/-! ### The choice at a place -/

/-- What is preferred at a place among the rules as they were given: the first of those with the
longest key among the rules with a key that apply, or else the first without a key that applies. -/
inductive Preferred (rules : List (Rule κ)) (c : Cursor) : Option (Rule κ) → Prop where
  | keyed {before behind : List (Rule κ)} {r : Rule κ} {key : String}
      (hrules : rules = before ++ r :: behind) (hkey : r.key = some key) (happlies : r.applies c)
      (hlongest : ∀ s ∈ rules, ∀ other ∈ s.key, s.applies c → other.length ≤ key.length)
      (hfirst : ∀ s ∈ before, ∀ other ∈ s.key, s.applies c → other.length < key.length) :
      Preferred rules c (some r)
  | keyless {before behind : List (Rule κ)} {r : Rule κ}
      (hkeyed : ∀ s ∈ rules, s.key.isSome → ¬ s.applies c)
      (hrules : rules = before ++ r :: behind) (hkey : r.key = none) (happlies : r.applies c)
      (hfirst : ∀ s ∈ before, s.key = none → ¬ s.applies c) : Preferred rules c (some r)
  | nothing (hnone : ∀ s ∈ rules, ¬ s.applies c) : Preferred rules c none

theorem keyLength_of_key {key : String} (h : r.key = some key) : r.keyLength = key.length := by
  rw [Rule.keyLength, h, Option.elim_some]

theorem keyLength_of_keyless (h : r.key = none) : r.keyLength = 0 := by
  rw [Rule.keyLength, h, Option.elim_none]

theorem keyLength_pos {key : String} (hr : r.key ≠ some "") (h : r.key = some key) :
    0 < r.keyLength := by
  rw [keyLength_of_key h, Nat.pos_iff_ne_zero]
  intro hzero
  rw [h, String.length_eq_zero_iff.mp hzero] at hr
  exact hr rfl

variable {c : Cursor}

theorem preferred_of_foremost (hkeys : ∀ r ∈ rules, r.key ≠ some "")
    (h : Foremost (·.applies c) rules r) : Preferred rules c (some r) := by
  have hle := h.le
  obtain ⟨before, behind, rfl, hr, hbefore, -⟩ := h
  cases hkey : r.key with
  | some key =>
    have hlength := keyLength_of_key hkey
    refine .keyed rfl hkey hr ?_ ?_
    · intro s hs other hother hsc
      rw [← hlength, ← keyLength_of_key hother]
      exact hle s hs hsc
    · intro s hs other hother hsc
      rw [← hlength, ← keyLength_of_key hother]
      exact hbefore s hs hsc
  | none =>
    have hzero := keyLength_of_keyless hkey
    refine .keyless ?_ rfl hkey hr ?_
    · intro s hs hsome hsc
      obtain ⟨other, hother⟩ := Option.isSome_iff_exists.mp hsome
      have hpos := keyLength_pos (hkeys s hs) hother
      have hshort := hle s hs hsc
      omega
    · intro s hs _ hsc
      have hshort := hbefore s hs hsc
      omega

theorem foremost_of_preferred (hkeys : ∀ r ∈ rules, r.key ≠ some "")
    (h : Preferred rules c (some r)) : Foremost (·.applies c) rules r := by
  cases h with
  | @keyed before behind _ key hrules hkey happlies hlongest hfirst =>
    subst hrules
    have hlength := keyLength_of_key hkey
    have hpos := keyLength_pos (hkeys r (by simp)) hkey
    refine ⟨before, behind, rfl, happlies, ?_, ?_⟩
    · intro s hs hsc
      cases hother : s.key with
      | none => rwa [keyLength_of_keyless hother]
      | some other =>
        rw [hlength, keyLength_of_key hother]
        exact hfirst s hs other hother hsc
    · intro s hs hsc
      cases hother : s.key with
      | none =>
        rw [keyLength_of_keyless hother]
        exact Nat.zero_le _
      | some other =>
        rw [hlength, keyLength_of_key hother]
        exact hlongest s (by simp [hs]) other hother hsc
  | @keyless before behind _ hkeyed hrules hkey happlies hfirst =>
    subst hrules
    have hnokey : ∀ s ∈ before ++ r :: behind, s.applies c → s.key = none := by
      intro s hs hsc
      exact Option.not_isSome_iff_eq_none.mp fun hsome => hkeyed s hs hsome hsc
    refine ⟨before, behind, rfl, happlies, ?_, ?_⟩
    · intro s hs hsc
      exact absurd hsc (hfirst s hs (hnokey s (by simp [hs]) hsc))
    · intro s hs hsc
      rw [keyLength_of_keyless (hnokey s (by simp [hs]) hsc)]
      exact Nat.zero_le _

theorem find?_orderByKey_iff (hkeys : ∀ r ∈ rules, r.key ≠ some "") (chosen : Option (Rule κ)) :
    (orderByKey rules).find? (·.applies c) = chosen ↔ Preferred rules c chosen := by
  cases chosen with
  | none =>
    rw [find?_orderByKey_eq_none]
    constructor
    · exact .nothing
    · rintro ⟨⟩
      assumption
  | some r =>
    constructor
    · intro h
      exact preferred_of_foremost hkeys (foremost_of_find? h)
    · intro h
      exact find?_of_foremost (foremost_of_preferred hkeys h)

end RuleSet

/-! ### Comments -/

/-- A comment of this style begins at the place. -/
def CommentStyle.Opens (style : CommentStyle) (c : Cursor) : Prop :=
  (∃ opening ∈ style.line, c.startsWith opening) ∨
    ∃ marks ∈ style.block, c.startsWith marks.1

namespace RuleSet

variable {rules : List (Rule κ)} {comments : CommentStyle} {c : Cursor}

theorem select_of_lineComment {opening : String} (hstyle : comments.line = some opening)
    (hopens : c.startsWith opening) :
    (ofRules rules comments).select c = some (.lineComment opening) := by
  rw [select, ofRules, CommentStyle.rules, hstyle]
  exact List.find?_cons_of_pos hopens

theorem find?_lineComment (hline : ∀ opening ∈ comments.line, ¬ c.startsWith opening) :
    (comments.line.map Rule.lineComment).toList.find? (fun r : Rule κ => r.applies c) = none := by
  cases hstyle : comments.line with
  | none => rfl
  | some opening => exact List.find?_cons_of_neg (hline opening hstyle)

theorem select_of_blockComment {opening closing : String}
    (hline : ∀ start ∈ comments.line, ¬ c.startsWith start)
    (hstyle : comments.block = some (opening, closing)) (hopens : c.startsWith opening) :
    (ofRules rules comments).select c = some (.blockComment opening closing) := by
  rw [select, ofRules, CommentStyle.rules, hstyle, List.append_assoc, List.find?_append,
    find?_lineComment hline, Option.none_or]
  exact List.find?_cons_of_pos hopens

theorem select_of_not_opens (h : ¬ comments.Opens c) :
    (ofRules rules comments).select c = (orderByKey rules).find? (·.applies c) := by
  obtain ⟨hline, hblock⟩ := not_or.mp h
  have hnoLine : ∀ opening ∈ comments.line, ¬ c.startsWith opening :=
    fun opening hstyle hopens => hline ⟨opening, hstyle, hopens⟩
  rw [select, ofRules, CommentStyle.rules, List.append_assoc, List.find?_append,
    find?_lineComment hnoLine, Option.none_or, List.find?_append]
  cases hstyle : comments.block with
  | none => rfl
  | some marks =>
    obtain ⟨opening, closing⟩ := marks
    have hnot : ¬ (Rule.blockComment opening closing : Rule κ).applies c :=
      fun hopens => hblock ⟨(opening, closing), hstyle, hopens⟩
    change (List.find? _ [Rule.blockComment opening closing]).or _ = _
    rw [List.find?_cons_of_neg (p := fun r : Rule κ => r.applies c) hnot]
    rfl

end RuleSet

namespace Cursor

variable {c : Cursor}

/-- A line comment takes at least one character. -/
theorem position_lt_skipLine (h : c.rest ≠ []) : c.position < c.skipLine.position := by
  have hpasses := (c.passes_skipWhile (· ≠ '\n')).trans (passes_advance _)
  have htaken : c.run (· ≠ '\n') ++ (c.skipWhile (· ≠ '\n')).rest.take 1 ≠ [] := by
    intro hnil
    obtain ⟨hrun, hbreak⟩ := List.append_eq_nil_iff.mp hnil
    have hsame : (c.skipWhile (· ≠ '\n')).rest = c.rest := by
      rw [(c.passes_skipWhile (· ≠ '\n')).rest, hrun, List.nil_append]
    rw [hsame, List.take_eq_nil_iff] at hbreak
    exact h (hbreak.resolve_left (by decide))
  have hposition : c.skipLine.position = _ := hpasses.position
  have hlength := List.length_pos_iff.mpr htaken
  omega

/-- So does a block comment, unless nothing marks its beginning and its end. -/
theorem position_lt_skipBlock {opening closing : String} (h : c.rest ≠ [])
    (hmarks : opening ≠ "" ∨ closing ≠ "") :
    c.position < ((c.advanceBy opening.length).skipPast closing).position := by
  have hrest : 0 < c.rest.length := List.length_pos_iff.mpr h
  have hlength : 0 < opening.length + closing.length := by
    rcases hmarks with hmark | hmark
    · have := Nat.pos_iff_ne_zero.mpr (mt String.length_eq_zero_iff.mp hmark)
      omega
    · have := Nat.pos_iff_ne_zero.mpr (mt String.length_eq_zero_iff.mp hmark)
      omega
  rw [skipPast, position_advanceBy, position_advanceBy, rest_advanceBy, List.length_drop]
  omega

end Cursor

/-! ### What the lexer does -/

namespace Lexer

variable [TokenKind κ] {l : Lexer κ}

/-- A lexer that has not failed, on a character of its text that is no white space. -/
structure Ready (l : Lexer κ) : Prop where
  fresh : l.failures = []
  inText : l.cursor.position + l.cursor.rest.length = l.size
  more : l.cursor.rest ≠ []
  solid : isBlank l.cursor.current = false

/-- The lexer goes on from another place without a token. Where that brings it no nearer to the end,
it would be there for ever. -/
structure SkipsTo (l : Lexer κ) (d : Cursor) : Prop where
  step : l.rules.step l.cursor = .skipped d
  next : remaining { l with cursor := d } < l.remaining → l.next = next { l with cursor := d }

/-- The lexer does what the rule does: it gives the token of the rule, fails as the rule does, or
goes on behind what the rule skips. Without a rule the character is not recognized. -/
inductive Obeys (l : Lexer κ) : Option (Rule κ) → Prop where
  | token {r : Rule κ} {t : Token κ} {d : Cursor} (hrun : r.run l.cursor = .ok (.token t) d)
      (hnext : l.next = .ok t { l with cursor := d }) : Obeys l (some r)
  | failure {r : Rule κ} {e : LexError} {d : Cursor} (hrun : r.run l.cursor = .error e d)
      (hnext : l.next = .error e (fail e { l with cursor := d })) : Obeys l (some r)
  | skip {r : Rule κ} {d : Cursor} (hrun : r.run l.cursor = .ok .skip d) (hskips : l.SkipsTo d) :
      Obeys l (some r)
  | nothing (hnext : l.next =
      .error (.unrecognized l.cursor.current l.cursor.position l.cursor.line)
        (fail (.unrecognized l.cursor.current l.cursor.position l.cursor.line) l)) : Obeys l none

theorem skipsTo_of_step (hfresh : l.failures = []) {d : Cursor}
    (h : l.rules.step l.cursor = .skipped d) : l.SkipsTo d := by
  refine ⟨h, fun hnearer => ?_⟩
  have hscan : l.rules.scan l.size l.cursor = l.rules.scan l.size d := by
    rw [RuleSet.scan, h]
    exact dif_pos hnearer
  simp only [next, hfresh, hscan]
  rfl

theorem next_of_failure (hfresh : l.failures = []) {e : LexError} {d : Cursor}
    (h : l.rules.step l.cursor = .failure e d) :
    l.next = .error e (fail e { l with cursor := d }) :=
  next_of_scan_error hfresh (by rw [RuleSet.scan, h])

theorem next_of_token (hfresh : l.failures = []) {t : Token κ} {d : Cursor}
    (h : l.rules.step l.cursor = .token t d) : l.next = .ok t { l with cursor := d } :=
  next_of_scan hfresh (by rw [RuleSet.scan, h])

theorem Ready.obeys (hl : l.Ready) : l.Obeys (l.rules.select l.cursor) := by
  have hend : ¬ l.cursor.atEnd := mt l.cursor.atEnd_iff.mp hl.more
  have hsolid : ¬ isBlank l.cursor.current := by simp [hl.solid]
  have hstep : l.rules.step l.cursor = _ := (if_neg hend).trans (if_neg hsolid)
  cases hselect : l.rules.select l.cursor with
  | none =>
    simp only [hselect] at hstep
    exact .nothing (next_of_failure hl.fresh hstep)
  | some r =>
    cases hrun : r.run l.cursor with
    | error e d =>
      simp only [hselect, hrun] at hstep
      exact .failure hrun (next_of_failure hl.fresh hstep)
    | ok lexeme d =>
      cases lexeme with
      | token t =>
        simp only [hselect, hrun] at hstep
        exact .token hrun (next_of_token hl.fresh hstep)
      | skip =>
        simp only [hselect, hrun] at hstep
        exact .skip hrun (skipsTo_of_step hl.fresh hstep)

theorem Obeys.skipsTo {r : Rule κ} {d : Cursor} (h : l.Obeys (some r))
    (hrun : r.run l.cursor = .ok .skip d) : l.SkipsTo d := by
  cases h with
  | token hrun' _ => cases hrun'.symm.trans hrun
  | failure hrun' _ => cases hrun'.symm.trans hrun
  | skip hrun' hskips =>
    cases hrun'.symm.trans hrun
    exact hskips

end Lexer

/-- The rules of a language are those of its comments and those that were given, none left out and
none twice. On a character that is no white space, a comment that begins there is skipped, and one
to the end of the line is looked for first. Where no comment begins, the lexer does what the
preferred rule does, or fails at that character if there is none; which rule is preferred is never
open. A lexer that has failed tries no rule and fails as before. -/
theorem longest_key_first [TokenKind κ] {rules : List (Rule κ)}
    (hkeys : ∀ r ∈ rules, r.key ≠ some "") (comments : CommentStyle) :
    (RuleSet.ofRules rules comments).rules.Perm (comments.rules ++ rules) ∧
    (∀ (l : Lexer κ) (e : LexError), l.failures.head? = some e → l.next = .error e l) ∧
    ∀ l : Lexer κ, l.rules = .ofRules rules comments → l.Ready →
      (∀ opening, comments.line = some opening → l.cursor.startsWith opening →
        l.SkipsTo l.cursor.skipLine ∧
          l.next = Lexer.next { l with cursor := l.cursor.skipLine }) ∧
      (∀ opening closing, comments.block = some (opening, closing) →
        (∀ start ∈ comments.line, ¬ l.cursor.startsWith start) → l.cursor.startsWith opening →
        let behind := (l.cursor.advanceBy opening.length).skipPast closing
        l.SkipsTo behind ∧
          (opening ≠ "" ∨ closing ≠ "" → l.next = Lexer.next { l with cursor := behind })) ∧
      (¬ comments.Opens l.cursor →
        ∃ chosen, RuleSet.Preferred rules l.cursor chosen ∧ l.Obeys chosen ∧
          ∀ other, RuleSet.Preferred rules l.cursor other → other = chosen) := by
  refine ⟨(RuleSet.orderByKey_perm rules).append_left comments.rules, ?_, ?_⟩
  · intro l e hfirst
    obtain ⟨more, hfailures⟩ := List.head?_eq_some_iff.mp hfirst
    simp only [Lexer.next, hfailures]
  intro l hrules hl
  have hobeys := hl.obeys
  have hnearer {d : Cursor} (hd : l.cursor.position < d.position) :
      Lexer.remaining { l with cursor := d } < l.remaining := by
    have hsize := hl.inText
    have hmore := List.length_pos_iff.mpr hl.more
    simp only [Lexer.remaining, Lexer.size] at hsize ⊢
    omega
  rw [hrules] at hobeys
  refine ⟨?_, ?_, ?_⟩
  · intro opening hstyle hopens
    rw [RuleSet.select_of_lineComment hstyle hopens] at hobeys
    have hskips := hobeys.skipsTo rfl
    exact ⟨hskips, hskips.next (hnearer (Cursor.position_lt_skipLine hl.more))⟩
  · intro opening closing hstyle hline hopens
    rw [RuleSet.select_of_blockComment hline hstyle hopens] at hobeys
    have hskips := hobeys.skipsTo rfl
    exact ⟨hskips, fun hmarks =>
      hskips.next (hnearer (Cursor.position_lt_skipBlock hl.more hmarks))⟩
  · intro hopens
    rw [RuleSet.select_of_not_opens hopens] at hobeys
    refine ⟨_, (RuleSet.find?_orderByKey_iff hkeys _).mp rfl, hobeys, ?_⟩
    intro other hother
    exact ((RuleSet.find?_orderByKey_iff hkeys other).mpr hother).symm

/-- Rules of which several apply to one text: a word, a reserved word that it begins with, and keys
that are shorter still. -/
def overlappingRules : List (Rule Kind) :=
  [.valued Vocabulary.startsIdentifier (Literal.text <$> Scan.readIdentifier) fun _ => .identifier,
   .keyword "if" .if, .literal "i" .plus, .literal "i" .minus, .literal "/" .divide]

/-- In `iffy` the reserved word does not end, so the first of the next shorter keys is read. Before
a comment the key that it begins with is not read. -/
theorem longest_key_first_overlapping :
    (∀ r ∈ overlappingRules, r.key ≠ some "") ∧
    (Lexer.start (.ofRules overlappingRules .slashes) "iffy").Ready ∧
    RuleSet.Preferred overlappingRules (Cursor.start "iffy") (some (.literal "i" .plus)) ∧
    (Lexer.start (.ofRules overlappingRules .slashes) "iffy").Obeys (some (.literal "i" .plus)) ∧
    (Lexer.start (.ofRules overlappingRules .slashes) "// i").Ready ∧
    (Lexer.start (.ofRules overlappingRules .slashes) "// i").SkipsTo ⟨4, 1, []⟩ := by
  have hkeys : ∀ r ∈ overlappingRules, r.key ≠ some "" := by decide
  obtain ⟨-, -, hchoice⟩ := longest_key_first hkeys .slashes
  have hword : (Lexer.start (.ofRules overlappingRules .slashes) "iffy").Ready :=
    ⟨rfl, rfl, by decide, by decide⟩
  have hcomment : (Lexer.start (.ofRules overlappingRules .slashes) "// i").Ready :=
    ⟨rfl, rfl, by decide, by decide⟩
  have hpreferred : RuleSet.Preferred overlappingRules (Cursor.start "iffy")
      (some (.literal "i" .plus)) := by
    have hrules : overlappingRules =
        overlappingRules.take 2 ++ .literal "i" .plus :: overlappingRules.drop 3 := rfl
    exact .keyed hrules rfl rfl (by decide) (by decide)
  refine ⟨hkeys, hword, hpreferred, ?_, hcomment, ((hchoice _ rfl hcomment).1 "//" rfl rfl).1⟩
  obtain ⟨chosen, -, hobeys, hunique⟩ := (hchoice _ rfl hword).2.2 (by
    rintro (⟨opening, hstyle, hopens⟩ | ⟨marks, hstyle, hopens⟩)
    · cases hstyle
      cases hopens
    · cases hstyle
      cases hopens)
  rwa [hunique _ hpreferred]

end ConsoleScript
