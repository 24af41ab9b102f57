import ConsoleScript.Proofs.Syntax.Script

/-!
# What the machine does to its levels

The machine goes through a script as the parser goes through the part that the script is for. On the
way it leaves no level that it has not entered, every procedure that succeeds ends on the level on
which it was called, and every loop takes a token before it goes round again. The rules by which
parts are put together are stated here for such scripts, one for each way to do so.
-/

namespace ConsoleScript

variable {σ κ α β γ : Type}

/-! ### Tokens that are taken -/

namespace Window

section

variable [TokenKind κ] [TokenSource σ κ]

/-- At least one token is taken between the two windows, and the end of the text is not. -/
inductive Precedes : Window σ κ → Window σ κ → Prop where
  | one {w w' : Window σ κ} (hend : w.current.isEnd = false) (h : w.StepsTo w') : Precedes w w'
  | more {w w₁ w' : Window σ κ} (hend : w.current.isEnd = false) (h : w.StepsTo w₁)
      (hmore : Precedes w₁ w') : Precedes w w'

namespace Precedes

variable {w w₁ w' : Window σ κ}

theorem trans (h : w.Precedes w₁) (h' : w₁.Precedes w') : w.Precedes w' := by
  induction h with
  | one hend h => exact .more hend h h'
  | more hend h _ ih => exact .more hend h (ih h')

theorem of_depth {depth : Nat} (h : Precedes { w with depth } w') : w.Precedes w' := by
  cases h with
  | one hend h => exact .one hend ⟨h.next, h.previous⟩
  | more hend h hmore => exact .more hend ⟨h.next, h.previous⟩ hmore

theorem withDepth (h : w.Precedes w') (depth : Nat) : w.Precedes { w' with depth } := by
  induction h with
  | one hend h => exact .one hend ⟨h.next, h.previous⟩
  | more hend h _ ih => exact .more hend h ih

end Precedes

end

theorem Precedes.remaining_lt {w w' : Window (Lexer Kind) Kind} (h : w.Precedes w')
    (hw : w.source.Steady) : w'.source.Steady ∧ w'.remaining < w.remaining := by
  have hone {w w' : Window (Lexer Kind) Kind} (hend : w.current.isEnd = false) (h : w.StepsTo w')
      (hw : w.source.Steady) : w'.source.Steady ∧ w'.remaining < w.remaining := by
    obtain ⟨hsteady, hle, hlt⟩ := Lexer.next_ok hw h.next
    refine ⟨hsteady, ?_⟩
    change w'.source.remaining + _ < w.source.remaining + _
    rw [hend]
    cases hcurrent : w'.current.isEnd with
    | true =>
      simp only [↓reduceIte, Bool.false_eq_true]
      omega
    | false =>
      have := hlt hcurrent
      simp only [↓reduceIte, Bool.false_eq_true]
      omega
  induction h with
  | one hend h => exact hone hend h hw
  | more hend h _ ih =>
    obtain ⟨hsteady, hlt⟩ := hone hend h hw
    obtain ⟨hsteady', hlt'⟩ := ih hsteady
    exact ⟨hsteady', Nat.lt_trans hlt' hlt⟩

/-- The window is on a text, and this many levels are left below it. -/
structure Ready (l : Nat) (w : Window (Lexer Kind) Kind) : Prop where
  steady : w.source.Steady
  depth : w.depth + l = nestingLimit

end Window

/-! ### Runs of the machine -/

namespace Script

theorem bind_bind (p : Script σ α) (f : α → Script σ β) (g : β → Script σ γ) :
    p >>= f >>= g = p >>= fun a => f a >>= g := by
  change (p.bind f).bind g = p.bind fun a => (f a).bind g
  induction p with
  | done a => rfl
  | fail e => rfl
  | act i k ih => exact congrArg (act i) (funext fun x => ih x f)
  | enter k ih => exact congrArg enter (ih f)
  | leave k ih => exact congrArg leave (ih f)
  | opening k ih => exact congrArg opening (ih f)
  | closing k ih => exact congrArg closing (ih f)
  | run p k ih => exact congrArg (run p) (funext fun n => ih n f)
  | loop round b k _ ih => exact congrArg (loop round b) (funext fun c => ih c f)

theorem bind_done (p : Script σ α) : p >>= done = p := by
  change p.bind done = p
  induction p with
  | done a => rfl
  | fail e => rfl
  | act i k ih => exact congrArg (act i) (funext ih)
  | enter k ih => exact congrArg enter ih
  | leave k ih => exact congrArg leave ih
  | opening k ih => exact congrArg opening ih
  | closing k ih => exact congrArg closing ih
  | run p k ih => exact congrArg (run p) (funext ih)
  | loop round b k _ ih => exact congrArg (loop round b) (funext ih)

end Script

/-- Whether the script goes on with neither a procedure nor a loop. -/
def Script.isPlain : Script σ α → Bool
  | run _ _ | loop _ _ _ => false
  | _ => true

namespace Config

variable [TokenSource σ Kind]

theorem Reaches.head {c c' : Config σ α} (h : c.step.Reaches c') : c.Reaches c' := by
  obtain ⟨n, hn⟩ := h
  exact ⟨n + 1, hn⟩

/-- What is in order about the next step of a machine. -/
structure Orderly (c : Config σ α) : Prop where
  /-- A level that is left was entered. -/
  leaves : c.leaves ≤ c.window.depth
  /-- A procedure that succeeds ends on the level on which it is called, and the machine goes on
  from there. -/
  returns : ∀ (p : Procedure) (k : Node → Script σ α), c.script = .run p k →
    ∀ (node : Node) (w : Window σ Kind), Reaches ⟨p.body, 0, c.window⟩ ⟨.done node, 0, w⟩ →
      w.depth = c.window.depth ∧ c.Reaches ⟨k node, c.opened, w⟩
  /-- A round after which there is another one takes a token. -/
  rounds : ∀ (β γ : Type) (round : β → Script σ (β ⊕ γ)) (b : β) (k : γ → Script σ α),
    c.script = .loop round b k → ∀ (b' : β) (w : Window σ Kind),
      Reaches ⟨round b, 0, c.window⟩ ⟨.done (.inl b'), 0, w⟩ →
        c.window.Precedes w ∧ c.Reaches ⟨.loop round b' k, c.opened, w⟩

theorem Orderly.of_plain {c : Config σ α} (hplain : c.script.isPlain)
    (hleaves : c.leaves ≤ c.window.depth) : c.Orderly := by
  refine ⟨hleaves, ?_, ?_⟩
  · intro p k h
    rw [h] at hplain
    cases hplain
  · intro β γ round b k h
    rw [h] at hplain
    cases hplain

/-- The one machine turns into the other, and on the way everything is in order. -/
inductive RunsTo : Config σ α → Config σ α → Prop where
  | refl (c : Config σ α) : RunsTo c c
  | head {c c' : Config σ α} (h : c.Orderly) (more : RunsTo c.step c') : RunsTo c c'

namespace RunsTo

variable {c c₁ c' : Config σ α}

theorem trans (h : RunsTo c c₁) (h' : RunsTo c₁ c') : RunsTo c c' := by
  induction h with
  | refl => exact h'
  | head h _ ih => exact .head h (ih h')

theorem reaches (h : RunsTo c c') : Reaches c c' := by
  induction h with
  | refl => exact ⟨0, rfl⟩
  | head _ _ ih => exact ih.head

/-- Everything is in order at all times if it is so at the end. -/
theorem orderly (h : RunsTo c c') (hstop : c'.step = c') (hlast : c'.Orderly) (n : Nat) :
    (step^[n] c).Orderly := by
  induction h generalizing n with
  | refl c =>
    rw [Function.iterate_fixed hstop]
    exact hlast
  | head h _ ih =>
    cases n with
    | zero => exact h
    | succ n => exact ih hstop hlast n

end RunsTo

/-- A machine comes to one end only. -/
theorem Reaches.unique {c c₁ c₂ : Config σ α} (h₁ : Reaches c c₁) (h₂ : Reaches c c₂)
    (hstop₁ : c₁.step = c₁) (hstop₂ : c₂.step = c₂) : c₁ = c₂ := by
  obtain ⟨n, rfl⟩ := h₁
  obtain ⟨m, rfl⟩ := h₂
  have hn := Function.iterate_fixed hstop₁ m
  have hm := Function.iterate_fixed hstop₂ n
  rw [← Function.iterate_add_apply] at hn hm
  rw [← hn, ← hm, Nat.add_comm]

end Config

/-! ### Scripts that are followed -/

open Config Script

/-- From this window the machine goes through the script as the parser goes through the part. Where
the part succeeds it is on the same level again, and it has taken a token unless `idle` holds of
what it gives. Where it fails it is on that level or below. -/
structure Script.FollowsAt (idle : α → Prop) (w : Window (Lexer Kind) Kind)
    (p : Script (Lexer Kind) α) (f : Parse (Lexer Kind) Kind α) : Prop where
  runs : ∀ {β : Type} (k : α → Script (Lexer Kind) β) {opened : Nat}, opened ≤ w.depth →
    RunsTo ⟨p >>= k, opened, w⟩ (settle k opened (f w))
  depth : ∀ {a : α} {w' : Window (Lexer Kind) Kind}, f w = .ok a w' → w'.depth = w.depth
  takes : ∀ {a : α} {w' : Window (Lexer Kind) Kind}, f w = .ok a w' →
    w.Precedes w' ∨ w' = w ∧ idle a
  fails : ∀ {e : ParseError} {w' : Window (Lexer Kind) Kind}, f w = .error e w' →
    w.depth ≤ w'.depth

/-- The script is followed wherever `l` levels are left. -/
def Script.Follows (l : Nat) (idle : α → Prop) (p : Script (Lexer Kind) α)
    (f : Parse (Lexer Kind) Kind α) : Prop :=
  ∀ ⦃w : Window (Lexer Kind) Kind⦄, w.Ready l → FollowsAt idle w p f

variable {l : Nat} {idle idle' : α → Prop} {w : Window (Lexer Kind) Kind}
  {p : Script (Lexer Kind) α} {f : Parse (Lexer Kind) Kind α}

theorem Script.FollowsAt.mono (hp : FollowsAt idle w p f) (h : ∀ a, idle a → idle' a) :
    FollowsAt idle' w p f :=
  { hp with takes := fun hok => (hp.takes hok).imp_right fun hidle => ⟨hidle.1, h _ hidle.2⟩ }

theorem Script.FollowsAt.ready (hp : FollowsAt idle w p f) (hw : w.Ready l) {a : α}
    {w' : Window (Lexer Kind) Kind} (h : f w = .ok a w') : w'.Ready l := by
  constructor
  · rcases hp.takes h with htaken | ⟨rfl, _⟩
    · exact (htaken.remaining_lt hw.steady).1
    · exact hw.steady
  · rw [hp.depth h]
    exact hw.depth

/-- A script that is followed, run on its own, gives what the part gives. -/
theorem Script.FollowsAt.alone (hp : FollowsAt idle w p f) {a : α} {w' : Window (Lexer Kind) Kind}
    (h : Reaches ⟨p, 0, w⟩ ⟨.done a, 0, w'⟩) : f w = .ok a w' := by
  have hreaches := (hp.runs done (Nat.zero_le _)).reaches
  rw [bind_done] at hreaches
  cases hrun : f w with
  | ok b v =>
    rw [hrun] at hreaches
    cases hreaches.unique h rfl rfl
    rfl
  | error e v =>
    rw [hrun] at hreaches
    cases hreaches.unique h rfl rfl

/-! ### Steps of which nothing is asked -/

theorem runsTo_act {i : Instruction (Lexer Kind) β} (k : β → Script (Lexer Kind) α) (opened : Nat)
    (w : Window (Lexer Kind) Kind) :
    RunsTo ⟨.act i k, opened, w⟩ (settle k opened (i.run w)) :=
  .head (.of_plain rfl (Nat.zero_le _)) (.refl _)

theorem Script.followsAt_done {a : α} (h : idle a) : FollowsAt idle w (done a) (pure a) := by
  constructor
  · intro β k opened _
    exact .refl _
  · rintro _ _ ⟨⟩
    rfl
  · rintro _ _ ⟨⟩
    exact .inr ⟨rfl, h⟩
  · rintro _ _ ⟨⟩

theorem Script.followsAt_fail (e : ParseError) : FollowsAt idle w (fail e) (throw e) := by
  constructor
  · intro β k opened _
    exact .refl _
  · rintro _ _ ⟨⟩
  · rintro _ _ ⟨⟩
  · rintro _ _ ⟨⟩
    exact Nat.le_refl _

theorem Script.followsAt_look {g : Window (Lexer Kind) Kind → Script (Lexer Kind) α}
    {f : Window (Lexer Kind) Kind → Parse (Lexer Kind) Kind α} (h : FollowsAt idle w (g w) (f w)) :
    FollowsAt idle w (look >>= g) (get >>= f) :=
  { h with runs := fun k _ hopened => (runsTo_act _ _ w).trans (h.runs k hopened) }

theorem Script.followsAt_isAt {kind : Kind} {g : Bool → Script (Lexer Kind) α}
    {f : Bool → Parse (Lexer Kind) Kind α}
    (h : FollowsAt idle w (g (w.isAt kind)) (f (w.isAt kind))) :
    FollowsAt idle w (isAt kind >>= g) (Parse.isAt kind >>= f) :=
  followsAt_look (g := fun v => g (v.isAt kind)) (f := fun v => f (v.isAt kind)) h

theorem Script.followsAt_unexpected :
    FollowsAt idle w unexpected (Parse.unexpected : Parse _ _ α) :=
  followsAt_look (g := fun v => fail v.unexpected) (f := fun v => throw v.unexpected)
    (followsAt_fail _)

theorem Script.FollowsAt.ite {c : Prop} [Decidable c] {p q : Script (Lexer Kind) α}
    {f g : Parse (Lexer Kind) Kind α} (hp : c → FollowsAt idle w p f)
    (hq : ¬ c → FollowsAt idle w q g) :
    FollowsAt idle w (if c then p else q) (if c then f else g) := by
  by_cases hc : c
  · rw [if_pos hc, if_pos hc]
    exact hp hc
  · rw [if_neg hc, if_neg hc]
    exact hq hc

/-! ### One part after another -/

theorem Script.FollowsAt.bind {also : β → Prop} {g : α → Script (Lexer Kind) β}
    {h : α → Parse (Lexer Kind) Kind β} (hp : FollowsAt idle w p f)
    (hg : ∀ (a : α) (w' : Window (Lexer Kind) Kind), f w = .ok a w' →
      FollowsAt (fun b => w' = w → idle a → also b) w' (g a) (h a)) :
    FollowsAt also w (p >>= g) (f >>= h) := by
  constructor
  · intro γ k opened hopened
    rw [Script.bind_bind]
    apply (hp.runs _ hopened).trans
    cases hrun : f w with
    | ok a w' =>
      rw [bind_of_ok hrun]
      exact (hg a w' hrun).runs k (hp.depth hrun ▸ hopened)
    | error e w' =>
      rw [bind_of_error hrun]
      exact .refl _
  · intro b v hok
    obtain ⟨a, w', hrun, hok⟩ := bind_ok hok
    exact ((hg a w' hrun).depth hok).trans (hp.depth hrun)
  · intro b v hok
    obtain ⟨a, w', hrun, hrest⟩ := bind_ok hok
    have hlast := (hg a w' hrun).takes hrest
    rcases hp.takes hrun with htaken | ⟨hsame, hidle⟩
    · rcases hlast with htaken' | ⟨rfl, _⟩
      · exact .inl (htaken.trans htaken')
      · exact .inl htaken
    · rw [hsame] at hlast
      exact hlast.imp_right fun h => ⟨h.1, h.2 rfl hidle⟩
  · intro e v herror
    cases hrun : f w with
    | ok a w' =>
      rw [bind_of_ok hrun] at herror
      have hbelow := (hg a w' hrun).fails herror
      rwa [hp.depth hrun] at hbelow
    | error e' w' =>
      rw [bind_of_error hrun] at herror
      cases herror
      exact hp.fails hrun

/-- What the last part gives without taking a token, the parts together give. -/
theorem Script.Follows.bind {also : β → Prop} {g : α → Script (Lexer Kind) β}
    {h : α → Parse (Lexer Kind) Kind β} (hp : Follows l idle p f)
    (hg : ∀ a, Follows l also (g a) (h a)) : Follows l also (p >>= g) (f >>= h) := by
  intro w hw
  apply (hp hw).bind
  intro a w' hrun
  exact (hg a ((hp hw).ready hw hrun)).mono fun b hb _ _ => hb

/-- Nothing is given without taking a token if the first part takes one. -/
theorem Script.FollowsAt.bind_taking {also : β → Prop} {g : α → Script (Lexer Kind) β}
    {h : α → Parse (Lexer Kind) Kind β} (hw : w.Ready l) (hp : FollowsAt (fun _ => False) w p f)
    (hg : ∀ a, Follows l (fun _ => True) (g a) (h a)) : FollowsAt also w (p >>= g) (f >>= h) := by
  apply hp.bind
  intro a w' hrun
  exact (hg a (hp.ready hw hrun)).mono fun b _ _ hidle => hidle.elim

theorem Script.Follows.bind_taking {also : β → Prop} {g : α → Script (Lexer Kind) β}
    {h : α → Parse (Lexer Kind) Kind β} (hp : Follows l (fun _ => False) p f)
    (hg : ∀ a, Follows l (fun _ => True) (g a) (h a)) : Follows l also (p >>= g) (f >>= h) :=
  fun _ hw => (hp hw).bind_taking hw hg

theorem Script.follows_done {a : α} (h : idle a) : Follows l idle (done a) (pure a) :=
  fun _ _ => followsAt_done h

theorem Script.Follows.never (hp : Follows l (fun _ => False) p f) : Follows l idle p f :=
  fun _ hw => (hp hw).mono fun _ h => h.elim

/-! ### Instructions that ask for tokens -/

/-- The window when a part has come to its end, whether it has succeeded or failed. -/
def landing : EStateM.Result ParseError (Window σ Kind) α → Window σ Kind
  | .ok _ w => w
  | .error _ w => w

theorem depth_advance [TokenSource σ Kind] (w : Window σ Kind) :
    (landing (Parse.advance w)).depth = w.depth := by
  unfold Parse.advance
  split <;> rfl

theorem depth_consume [TokenSource σ Kind] (kind : Kind) (w : Window σ Kind) :
    (landing (Parse.consume kind w)).depth = w.depth := by
  unfold Parse.consume
  split
  · exact depth_advance w
  · rfl

theorem Instruction.depth_run [TokenSource σ Kind] (i : Instruction σ α) (w : Window σ Kind) :
    (landing (i.run w)).depth = w.depth := by
  cases i with
  | look => rfl
  | advance => exact depth_advance w
  | consume kind => exact depth_consume kind w
  | peek =>
    change (landing (Parse.peek w)).depth = _
    unfold Parse.peek
    split <;> rfl
  | identifier =>
    change (landing (Grammar.identifier w)).depth = _
    have hconsume := depth_consume .identifier w
    unfold Grammar.identifier
    cases hrun : Parse.consume .identifier w with
    | ok t v =>
      rw [hrun] at hconsume
      rw [bind_of_ok hrun]
      cases t.value with
      | none => exact hconsume
      | some value => cases value <;> exact hconsume
    | error e v =>
      rw [hrun] at hconsume
      rw [bind_of_error hrun]
      exact hconsume

theorem Script.followsAt_act {i : Instruction (Lexer Kind) α}
    (htakes : ∀ {a w'}, i.run w = .ok a w' → w.Precedes w' ∨ w' = w ∧ idle a) :
    FollowsAt idle w (act i done) i.run := by
  have hdepth := i.depth_run w
  constructor
  · intro β k opened _
    exact runsTo_act k opened w
  · intro a w' h
    rwa [h] at hdepth
  · intro a w' h
    exact htakes h
  · intro e w' h
    rw [h] at hdepth
    exact Nat.le_of_eq hdepth.symm

theorem Script.followsAt_advance (hend : w.current.isEnd = false) :
    FollowsAt (fun _ => False) w advance Parse.advance :=
  followsAt_act fun h => .inl (.one hend (Parse.advance_ok h).2)

theorem Script.follows_consume {kind : Kind} (hkind : kind ≠ .endOfText) :
    Follows l (fun _ => False) (consume kind) (Parse.consume kind) := by
  intro w _
  refine followsAt_act fun h => .inl ?_
  obtain ⟨_, hcurrent, hsteps⟩ := Parse.consume_ok h
  exact .one (Derivation.isEnd_eq_false (hcurrent ▸ hkind)) hsteps

theorem Script.follows_identifier : Follows l (fun _ => False) identifier Grammar.identifier := by
  intro w _
  refine followsAt_act fun h => .inl ?_
  obtain ⟨hnamed, hsteps⟩ := Derivation.identifier_ok h
  exact .one (Derivation.isEnd_eq_false hnamed.not_end) hsteps

theorem Script.follows_peek : Follows l (fun _ => True) peek Parse.peek :=
  fun _ _ => followsAt_act fun h => .inr ⟨(Parse.peek_ok h).1, trivial⟩

/-! ### Levels -/

theorem enter_of_ready (hw : w.Ready (l + 1)) :
    Parse.enter w = .ok () { w with depth := w.depth + 1 } ∧
      Window.Ready l { w with depth := w.depth + 1 } := by
  have hdepth := hw.depth
  constructor
  · exact if_pos (by omega)
  · exact ⟨hw.steady, by simp only; omega⟩

theorem enter_of_ready_zero (hw : w.Ready 0) : Parse.enter w = Parse.tooDeep w :=
  if_neg (Nat.not_lt.mpr (Nat.le_of_eq hw.depth.symm))

theorem nested_bind (p : Script σ α) (k : α → Script σ β) :
    nested p >>= k = opening (p >>= fun a => closing (k a)) :=
  congrArg opening (Script.bind_bind p _ k)

theorem counted_bind (p : Script σ α) (k : α → Script σ β) :
    counted p >>= k = enter (p >>= fun a => leave (k a)) :=
  congrArg enter (Script.bind_bind p _ k)

/-- What succeeds one level down has taken the same tokens when it has come up. -/
theorem Script.FollowsAt.up {a : α} {v : Window (Lexer Kind) Kind}
    (hp : FollowsAt idle { w with depth := w.depth + 1 } p f)
    (h : f { w with depth := w.depth + 1 } = .ok a v) :
    1 ≤ v.depth ∧ (v.leave 1).depth = w.depth ∧
      (w.Precedes (v.leave 1) ∨ v.leave 1 = w ∧ idle a) := by
  have hdepth : v.depth = w.depth + 1 := hp.depth h
  refine ⟨by omega, by rw [Window.leave, hdepth, Nat.add_sub_cancel], ?_⟩
  rcases hp.takes h with htaken | ⟨rfl, hidle⟩
  · exact .inl (htaken.of_depth.withDepth _)
  · exact .inr ⟨rfl, hidle⟩

theorem Script.FollowsAt.of_ok {a : α} {v : Window (Lexer Kind) Kind} (hok : f w = .ok a v)
    (hruns : ∀ {β : Type} (k : α → Script (Lexer Kind) β) (opened : Nat), opened ≤ w.depth →
      RunsTo ⟨p >>= k, opened, w⟩ ⟨k a, opened, v⟩)
    (hdepth : v.depth = w.depth) (htakes : w.Precedes v ∨ v = w ∧ idle a) :
    FollowsAt idle w p f := by
  constructor
  · intro β k opened hopened
    rw [hok]
    exact hruns k opened hopened
  · intro b u h
    cases hok.symm.trans h
    exact hdepth
  · intro b u h
    cases hok.symm.trans h
    exact htakes
  · intro e u h
    cases hok.symm.trans h

theorem Script.FollowsAt.of_error {e : ParseError} {v : Window (Lexer Kind) Kind}
    (herror : f w = .error e v)
    (hruns : ∀ {β : Type} (k : α → Script (Lexer Kind) β) (opened : Nat), opened ≤ w.depth →
      RunsTo ⟨p >>= k, opened, w⟩ ⟨.fail e, opened, v⟩)
    (hdepth : w.depth ≤ v.depth) : FollowsAt idle w p f := by
  constructor
  · intro β k opened hopened
    rw [herror]
    exact hruns k opened hopened
  · intro b u h
    cases herror.symm.trans h
  · intro b u h
    cases herror.symm.trans h
  · intro e' u h
    cases herror.symm.trans h
    exact hdepth

theorem Script.Follows.nested (hp : Follows l idle p f) :
    Follows (l + 1) idle (nested p) (Parse.nested f) := by
  intro w hw
  obtain ⟨henter, hready⟩ := enter_of_ready hw
  have hinner := hp hready
  -- On the way down one more part is open, until the machine comes up or fails.
  have hdown {β : Type} (k : α → Script (Lexer Kind) β) {opened : Nat}
      (hopened : opened ≤ w.depth) :
      RunsTo ⟨Script.nested p >>= k, opened, w⟩
        (settle (fun a => closing (k a)) (opened + 1) (f { w with depth := w.depth + 1 })) := by
    rw [nested_bind]
    refine .head (.of_plain rfl (Nat.zero_le _)) ?_
    simp only [step, henter]
    exact hinner.runs _ (Nat.succ_le_succ hopened)
  cases hrun : f { w with depth := w.depth + 1 } with
  | ok a v =>
    have hok : Parse.nested f w = .ok a (v.leave 1) := by simp only [Parse.nested, henter, hrun]
    obtain ⟨hpositive, hdepth, htakes⟩ := hinner.up hrun
    refine .of_ok hok ?_ hdepth htakes
    intro β k opened hopened
    have hdown := hdown k hopened
    rw [hrun] at hdown
    exact hdown.trans (.head (.of_plain rfl hpositive) (.refl _))
  | error e v =>
    have herror : Parse.nested f w = .error e (v.leave 1) := by
      simp only [Parse.nested, henter, hrun]
    have hdepth : w.depth + 1 ≤ v.depth := hinner.fails hrun
    refine .of_error herror ?_ (Nat.le_sub_of_add_le hdepth)
    intro β k opened hopened
    have hdown := hdown k hopened
    rw [hrun] at hdown
    exact hdown.trans (.head (.of_plain rfl (Nat.le_of_add_left_le hdepth)) (.refl _))

theorem Script.follows_nested_zero {p : Script (Lexer Kind) α} :
    Follows 0 (fun _ => False) (nested p) Parse.tooDeep := by
  intro w hw
  have henter := enter_of_ready_zero hw
  refine .of_error rfl ?_ (Nat.le_refl _)
  intro β k opened _
  rw [nested_bind]
  refine .head (.of_plain rfl (Nat.zero_le _)) ?_
  simp only [step, henter]
  exact .refl _

/-- The token in front of the part is the same one level down, so the part may ask for it. -/
theorem Script.FollowsAt.counted (hw : w.Ready (l + 1))
    (hp : Window.Ready l { w with depth := w.depth + 1 } →
      FollowsAt idle { w with depth := w.depth + 1 } p f) :
    FollowsAt idle w (counted p) (do
      Parse.enter
      let a ← f
      Parse.leave 1
      return a) := by
  obtain ⟨henter, hready⟩ := enter_of_ready hw
  have hinner := hp hready
  have hdown {β : Type} (k : α → Script (Lexer Kind) β) {opened : Nat}
      (hopened : opened ≤ w.depth) :
      RunsTo ⟨Script.counted p >>= k, opened, w⟩
        (settle (fun a => leave (k a)) opened (f { w with depth := w.depth + 1 })) := by
    rw [counted_bind]
    refine .head (.of_plain rfl (Nat.zero_le _)) ?_
    simp only [step, henter]
    exact hinner.runs _ (Nat.le_succ_of_le hopened)
  cases hrun : f { w with depth := w.depth + 1 } with
  | ok a v =>
    obtain ⟨hpositive, hdepth, htakes⟩ := hinner.up hrun
    refine .of_ok (v := v.leave 1) ?_ ?_ hdepth htakes
    · rw [bind_of_ok henter, bind_of_ok hrun]
      rfl
    · intro β k opened hopened
      have hdown := hdown k hopened
      rw [hrun] at hdown
      exact hdown.trans (.head (.of_plain rfl hpositive) (.refl _))
  | error e v =>
    refine .of_error (e := e) (v := v) ?_ ?_ (Nat.le_of_succ_le (hinner.fails hrun))
    · rw [bind_of_ok henter, bind_of_error hrun]
    · intro β k opened hopened
      have hdown := hdown k hopened
      rwa [hrun] at hdown

theorem Script.follows_counted_zero {p : Script (Lexer Kind) α} :
    Follows 0 (fun _ => False) (counted p) Parse.tooDeep := by
  intro w hw
  have henter := enter_of_ready_zero hw
  refine .of_error rfl ?_ (Nat.le_refl _)
  intro β k opened _
  rw [counted_bind]
  refine .head (.of_plain rfl (Nat.zero_le _)) ?_
  simp only [step, henter]
  exact .refl _

/-! ### Procedures and loops -/

theorem Script.Follows.run {q : Procedure} {idle : Node → Prop} {f : Parse (Lexer Kind) Kind Node}
    (h : Follows l idle q.body f) : Follows l idle q.script f := by
  intro w hw
  have hbody := h hw
  have horderly {β : Type} (k : Node → Script (Lexer Kind) β) {opened : Nat}
      (hopened : opened ≤ w.depth) : Config.Orderly ⟨.run q k, opened, w⟩ := by
    refine ⟨Nat.zero_le _, ?_, ?_⟩
    · rintro p k ⟨⟩ node w' halone
      have hok := hbody.alone halone
      have hruns := hbody.runs k hopened
      rw [hok] at hruns
      exact ⟨hbody.depth hok, hruns.reaches.head⟩
    · rintro β γ round b k ⟨⟩
  refine { hbody with runs := ?_ }
  intro β k opened hopened
  exact .head (horderly k hopened) (hbody.runs k hopened)

theorem runsTo_loop {round : β → Script (Lexer Kind) (β ⊕ γ)} {b : β}
    {g : Parse (Lexer Kind) Kind (β ⊕ γ)} {idle : γ → Prop}
    (h : FollowsAt (Sum.elim (fun _ => False) idle) w (round b) g) (k : γ → Script (Lexer Kind) α)
    {opened : Nat} (hopened : opened ≤ w.depth) :
    RunsTo ⟨.loop round b k, opened, w⟩
      (settle (Sum.elim (.loop round · k) k) opened (g w)) := by
  refine .head ⟨Nat.zero_le _, ?_, ?_⟩ (h.runs _ hopened)
  · rintro p k ⟨⟩
  · rintro β γ round b k ⟨⟩ b' w' halone
    have hok := h.alone halone
    have hruns := h.runs (Sum.elim (.loop round · k) k) hopened
    rw [hok] at hruns
    exact ⟨(h.takes hok).resolve_right And.right, hruns.reaches.head⟩

/-- Every round but the last takes a token, so the parser never gives up on a loop. -/
theorem Script.Follows.iterate {round : β → Script (Lexer Kind) (β ⊕ γ)}
    {g : β → Parse (Lexer Kind) Kind (β ⊕ γ)} {idle : γ → Prop}
    (hround : ∀ b, Follows l (Sum.elim (fun _ => False) idle) (round b) (g b)) (b : β) :
    Follows l idle (iterate round b) (Parse.iterate g b) := by
  intro w hw
  induction hleft : w.remaining using Nat.strongRecOn generalizing b w with
  | ind n ih =>
    have hfirst := hround b hw
    have hloop {δ : Type} (k : γ → Script (Lexer Kind) δ) {opened : Nat}
        (hopened : opened ≤ w.depth) := runsTo_loop hfirst k hopened
    cases hrun : g b w with
    | error e v =>
      refine .of_error (e := e) (v := v) (by rw [Parse.iterate, hrun]) ?_ (hfirst.fails hrun)
      intro δ k opened hopened
      have hloop := hloop k hopened
      rwa [hrun] at hloop
    | ok r v =>
      cases r with
      | inr c =>
        refine .of_ok (a := c) (v := v) (by rw [Parse.iterate, hrun]) ?_ (hfirst.depth hrun)
          (hfirst.takes hrun)
        intro δ k opened hopened
        have hloop := hloop k hopened
        rwa [hrun] at hloop
      | inl b' =>
        have htaken : w.Precedes v := (hfirst.takes hrun).resolve_right And.right
        have hless := (htaken.remaining_lt hw.steady).2
        have hagain : Parse.iterate g b w = Parse.iterate g b' v := by
          rw [Parse.iterate, hrun]
          simp only [hless, ↓reduceDIte]
        have hdepth := hfirst.depth hrun
        have hrest := ih _ (hleft ▸ hless) b' (hfirst.ready hw hrun) rfl
        constructor
        · intro δ k opened hopened
          have hloop := hloop k hopened
          rw [hrun] at hloop
          rw [hagain]
          exact hloop.trans (hrest.runs k (hdepth ▸ hopened))
        · intro a w' h
          exact (hrest.depth (hagain.symm.trans h)).trans hdepth
        · intro a w' h
          rcases hrest.takes (hagain.symm.trans h) with htaken' | ⟨rfl, _⟩
          · exact .inl (htaken.trans htaken')
          · exact .inl htaken
        · intro e w' h
          have hbelow := hrest.fails (hagain.symm.trans h)
          rwa [hdepth] at hbelow

end ConsoleScript
