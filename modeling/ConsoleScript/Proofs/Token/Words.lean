import Mathlib
import ConsoleScript.Proofs.Token.Lexemes
import ConsoleScript.Proofs.Token.Selection

/-!
# A word is one token

A word is taken as a whole, up to the first character that cannot go on with it. It is a reserved
word only if all of it is one, so a name may begin with a reserved word. What carries this is that a
reserved word stands somewhere exactly if it is the run of word characters from there on.
-/

namespace ConsoleScript

open Text

/-- Letters, numbers and underscores, the first being a letter or an underscore before a letter. -/
structure IsWord (w : String) : Prop where
  chars : ∀ x ∈ w.toList, isWordChar x
  first : ∃ x rest, w.toList = x :: rest ∧
    (isAlphabetic x ∨ x = '_' ∧ ∃ y ∈ rest.head?, isAlphabetic y)

namespace Vocabulary

/-- The word is in front of the cursor, and nothing behind it goes on with it. -/
structure AtWord (c : Cursor) (w : String) (behind : List Char) : Prop where
  word : IsWord w
  rest : c.rest = w.toList ++ behind
  ends : Stops isWordChar behind

variable {c : Cursor} {w : String} {behind : List Char}

namespace AtWord

theorem run_eq (h : AtWord c w behind) : c.run isWordChar = w.toList :=
  Printing.run_eq h.rest h.word.chars h.ends

/-- The cursor behind the word, on the same line, since no line break is in a word. -/
theorem advanceBy_eq (h : AtWord c w behind) :
    c.advanceBy w.length = ⟨c.position + w.length, c.line, behind⟩ := by
  have htake : c.rest.take w.length = w.toList := by
    rw [h.rest, ← String.length_toList, List.take_left]
  have hdrop : c.rest.drop w.length = behind := by
    rw [h.rest, ← String.length_toList, List.drop_left]
  have hlength : min w.length c.rest.length = w.length := by
    rw [h.rest, List.length_append, String.length_toList]
    omega
  have hbreaks : w.toList.count '\n' = 0 := by
    rw [List.count_eq_zero]
    intro hmem
    exact absurd (h.word.chars _ hmem) (by decide)
  calc
    c.advanceBy w.length = ⟨(c.advanceBy w.length).position, (c.advanceBy w.length).line,
        (c.advanceBy w.length).rest⟩ := rfl
    _ = ⟨c.position + w.length, c.line, behind⟩ := by
      rw [Cursor.position_advanceBy, Cursor.line_advanceBy, Cursor.rest_advanceBy, htake, hdrop,
        hlength, hbreaks, Nat.add_zero]

theorem skipWhile_eq (h : AtWord c w behind) :
    c.skipWhile isWordChar = ⟨c.position + w.length, c.line, behind⟩ := by
  rw [Cursor.skipWhile, h.run_eq, String.length_toList, h.advanceBy_eq]

theorem isWordChar_current (h : AtWord c w behind) : isWordChar c.current := by
  obtain ⟨x, rest, hchars, _⟩ := h.word.first
  have hrest : c.rest = x :: (rest ++ behind) := by rw [h.rest, hchars, List.cons_append]
  rw [Printing.current_eq hrest]
  exact h.word.chars x (by simp [hchars])

theorem rest_ne_nil (h : AtWord c w behind) : c.rest ≠ [] := by
  obtain ⟨x, rest, hchars, _⟩ := h.word.first
  simp [h.rest, hchars]

/-- A reserved word stands here if it is the whole word. -/
theorem keyword_applies_iff (h : AtWord c w behind) {key : String}
    (hkey : ∀ x ∈ key.toList, isWordChar x) (kind : Kind) :
    (Rule.keyword key kind).applies c ↔ key = w := by
  have happlies : (Rule.keyword key kind).applies c ↔
      c.startsWith key ∧ isWordChar (c.lookahead key.length) = false := by
    simp [Rule.keyword]
  rw [happlies]
  constructor
  · rintro ⟨hstands, hends⟩
    have hpasses := passes_key hstands
    rw [← String.length_toList, lookahead_of_passes hpasses] at hends
    have hrun := Printing.run_eq hpasses.rest hkey ((stops_iff_current (by decide)).mpr hends)
    exact String.toList_inj.mp (hrun.symm.trans h.run_eq)
  · rintro rfl
    have hstands : c.startsWith key := by
      rw [Cursor.startsWith, List.isPrefixOf_iff_prefix, h.rest]
      exact List.prefix_append _ _
    refine ⟨hstands, ?_⟩
    have hpasses := passes_key hstands
    rw [← String.length_toList, lookahead_of_passes hpasses]
    apply (stops_iff_current (by decide)).mp
    rw [hpasses.rest_eq h.rest]
    exact h.ends

end AtWord

theorem keyword_mem {kind : Kind} (h : kind.word? = some w) :
    Rule.keyword w kind ∈ reservedWords := by
  cases kind <;> cases h <;> simp [reservedWords]

theorem reserved_chars {kind : Kind} (h : kind.word? = some w) :
    ∀ x ∈ w.toList, isWordChar x := by
  have hall : w.toList.all isWordChar := by cases kind <;> cases h <;> decide
  exact List.all_eq_true.mp hall

/-- Reserved words of two kinds are not the same. -/
theorem keyword_unique {kind kind' : Kind} (h : kind.word? = some w) (h' : kind'.word? = some w) :
    Rule.keyword w kind = Rule.keyword w kind' := by
  have hnodup : (reservedWords.map Rule.key).Nodup := by decide
  exact List.inj_on_of_nodup_map hnodup (keyword_mem h) (keyword_mem h') rfl

/-- Of the rules that are tried before those for names and numbers, only the reserved word that is
the whole word applies to it. -/
theorem AtWord.keyword_of_applies (h : AtWord c w behind) {r : Rule Kind}
    (hr : r ∈ CommentStyle.slashes.rules ++ RuleSet.orderByKey (punctuation ++ reservedWords))
    (happlies : r.applies c) : ∃ kind : Kind, kind.word? = some w ∧ r = .keyword w kind := by
  have hr : r ∈ CommentStyle.slashes.rules ++ punctuation ∨ r ∈ reservedWords := by
    simpa only [List.mem_append, (RuleSet.orderByKey_perm _).mem_iff, or_assoc] using hr
  rcases hr with hr | hr
  · obtain ⟨key, hkey, hstands⟩ := Printing.applies_symbol hr
    have hsymbol := Printing.not_mem_symbols h.isWordChar_current
    have hstarts := hstands c happlies
    rw [Printing.startsWith_eq_false hsymbol hkey] at hstarts
    cases hstarts
  · obtain ⟨key, kind, rfl, hkind⟩ := keyword_of_mem hr
    cases (h.keyword_applies_iff (reserved_chars hkind) kind).mp happlies
    exact ⟨kind, hkind, rfl⟩

theorem AtWord.select_reserved (h : AtWord c w behind) {kind : Kind} (hkind : kind.word? = some w) :
    console.select c = some (.keyword w kind) := by
  have happlies := (h.keyword_applies_iff h.word.chars kind).mpr rfl
  have hfound : ((CommentStyle.slashes.rules ++
      RuleSet.orderByKey (punctuation ++ reservedWords)).find?
        fun r : Rule Kind => r.applies c).isSome := by
    rw [List.find?_isSome]
    refine ⟨.keyword w kind, ?_, happlies⟩
    simp [(RuleSet.orderByKey_perm _).mem_iff, keyword_mem hkind]
  obtain ⟨r, hfind⟩ := Option.isSome_iff_exists.mp hfound
  have hfirst := List.find?_some hfind
  obtain ⟨kind', hkind', rfl⟩ := h.keyword_of_applies (List.mem_of_find?_eq_some hfind) hfirst
  rw [RuleSet.select, Printing.console_rules, List.find?_append, hfind, Option.some_or,
    keyword_unique hkind' hkind]

theorem AtWord.select_name (h : AtWord c w behind) (hnot : ∀ kind : Kind, kind.word? ≠ some w) :
    console.select c = some (.valued startsIdentifier (Literal.text <$> Scan.readIdentifier)
      fun _ => .identifier) := by
  have hnone : (CommentStyle.slashes.rules ++
      RuleSet.orderByKey (punctuation ++ reservedWords)).find?
        (fun r : Rule Kind => r.applies c) = none := by
    refine List.find?_eq_none.mpr fun r hr happlies => ?_
    obtain ⟨kind, hkind, _⟩ := h.keyword_of_applies hr happlies
    exact hnot kind hkind
  obtain ⟨x, rest, hchars, hfirst⟩ := h.word.first
  have hrest : c.rest = x :: (rest ++ behind) := by rw [h.rest, hchars, List.cons_append]
  have hnumber := Printing.startsNumber_eq_false hrest (hfirst.imp_right And.left)
  have hname : startsIdentifier c := by
    rw [Printing.startsIdentifier_iff hrest]
    refine hfirst.imp_right (And.imp_right ?_)
    rintro ⟨y, hy, halpha⟩
    obtain ⟨ys, rfl⟩ := List.head?_eq_some_iff.mp hy
    exact ⟨y, rfl, halpha⟩
  rw [RuleSet.select, Printing.console_rules, List.find?_append, hnone, Option.none_or, literals,
    List.find?_cons_of_neg (by simp [Rule.valued, Rule.keyless, hnumber]),
    List.find?_cons_of_pos (by simp [Rule.valued, Rule.keyless, hname])]

/-- Where a word stands, the lexer gives one token for all of it and is behind it then. The token is
that of the reserved word if the word is one, and otherwise an identifier with the word as its
value. -/
theorem word_is_token {l : Lexer Kind} (hrules : l.rules = console) (hfresh : l.failures = [])
    (hword : IsWord w) (hrest : l.cursor.rest = w.toList ++ behind)
    (hends : Stops isWordChar behind) :
    let after := { l with cursor := ⟨l.cursor.position + w.length, l.cursor.line, behind⟩ }
    (∀ kind : Kind, kind.word? = some w →
      l.next = .ok ⟨kind, none, l.cursor.line⟩ after) ∧
    ((∀ kind : Kind, kind.word? ≠ some w) →
      l.next = .ok ⟨.identifier, some (.text w), l.cursor.line⟩ after) := by
  have h : AtWord l.cursor w behind := ⟨hword, hrest, hends⟩
  have hsolid := Printing.isBlank_eq_false h.isWordChar_current
  constructor
  · intro kind hkind
    have hrun : (Rule.keyword w kind).run l.cursor =
        .ok (.token ⟨kind, none, l.cursor.line⟩) (l.cursor.advanceBy w.length) := rfl
    rw [h.advanceBy_eq] at hrun
    apply Lexer.next_of_token hfresh
    rw [hrules]
    exact RuleSet.step_of_token h.rest_ne_nil hsolid (h.select_reserved hkind) hrun
  · intro hnot
    have hread : Scan.readIdentifier l.cursor = .ok w
        ⟨l.cursor.position + w.length, l.cursor.line, behind⟩ := by
      change EStateM.Result.ok (String.ofList (l.cursor.run isWordChar))
        (l.cursor.skipWhile isWordChar) = _
      rw [h.run_eq, String.ofList_toList, h.skipWhile_eq]
    have hvalue := bind_of_ok (f := fun text => pure (Literal.text text)) hread
    obtain ⟨rest, hcurrent⟩ := rest_of_class (by decide) h.isWordChar_current
    apply Lexer.next_of_token hfresh
    rw [hrules]
    exact Printing.step_valued hcurrent hsolid (h.select_name hnot) hvalue

/-- A reserved word before a parenthesis, one at the end of the text that goes on, and a name of
other letters behind an underscore. -/
theorem word_is_token_reserved_or_name :
    (IsWord "if" ∧ Stops isWordChar "(x)".toList ∧
      (Lexer.start console "if(x)").next =
        .ok ⟨.if, none, 1⟩ { Lexer.start console "if(x)" with cursor := ⟨2, 1, "(x)".toList⟩ }) ∧
    (IsWord "iffy" ∧ Stops isWordChar [] ∧
      (Lexer.start console "iffy").next =
        .ok ⟨.identifier, some (.text "iffy"), 1⟩
          { Lexer.start console "iffy" with cursor := ⟨4, 1, []⟩ }) ∧
    IsWord "_λ1" ∧ Stops isWordChar "=2".toList ∧
      (Lexer.start console "_λ1=2").next =
        .ok ⟨.identifier, some (.text "_λ1"), 1⟩
          { Lexer.start console "_λ1=2" with cursor := ⟨3, 1, "=2".toList⟩ } := by
  have hif : IsWord "if" :=
    ⟨List.all_eq_true.mp (by decide), 'i', ['f'], rfl, .inl (by decide)⟩
  have hiffy : IsWord "iffy" :=
    ⟨List.all_eq_true.mp (by decide), 'i', ['f', 'f', 'y'], rfl, .inl (by decide)⟩
  have hname : IsWord "_λ1" :=
    ⟨List.all_eq_true.mp (by decide +kernel), '_', ['λ', '1'], rfl,
      .inr ⟨rfl, 'λ', rfl, by decide +kernel⟩⟩
  have hparen : Stops isWordChar "(x)".toList := by
    rintro x ⟨⟩
    decide
  have hassign : Stops isWordChar "=2".toList := by
    rintro x ⟨⟩
    decide
  have hnothing : Stops isWordChar [] := by
    rintro x ⟨⟩
  refine ⟨⟨hif, hparen, ?_⟩, ⟨hiffy, hnothing, ?_⟩, hname, hassign, ?_⟩
  · exact (word_is_token (l := .start console "if(x)") rfl rfl hif rfl hparen).1 .if rfl
  · exact (word_is_token (l := .start console "iffy") rfl rfl hiffy rfl hnothing).2
      (by intro kind; cases kind <;> decide)
  · exact (word_is_token (l := .start console "_λ1=2") rfl rfl hname rfl hassign).2
      (by intro kind; cases kind <;> decide)

end Vocabulary

end ConsoleScript
