import Mathlib.Data.List.Forall2
import Overworld.Proofs.Routines

/-!
Two games side by side.

A simulation has two runs of one game, which find the same stage. A `Pairing` has runs of two games,
whose sessions only have to look alike, with what comes of them in pairs: what it relates may differ
in handles and in all that nothing looks at. Errands join whatever the games
(`Pairing.Joins.errand`). Where both games are one and both sessions too, that tells what errands
keep (`Play.Errand.keeps`).
-/

namespace Overworld

open Simulation (Looks)

/-- A relation between the sessions of two games that look alike, which frames and mere deeds keep,
and how both games may halt. -/
structure Pairing where
  related : Session → Session → Prop
  halted : Halt → Session → Session → Prop
  outlook : ∀ {s t}, related s t → t.outlook = s.outlook
  stop : ∀ {s t}, related s t → t.host.stop? = s.host.stop?
  deed : ∀ {s t} {d : Deed}, d.Mere → related s t → related (d.apply s) (d.apply t)
  frame : ∀ {s t}, related s t →
    related { s with host := s.host.afterFrame } { t with host := t.host.afterFrame }
  /-- Every halt is one of both games, but one for a variable has a reason of its own. -/
  halts : ∀ {e s t}, (∀ error, e ≠ .variable error) → related s t → halted e s t

namespace Pairing

variable {α β γ δ : Type}

/-- Two results that are in a relation, and were come to in related sessions. -/
inductive Joined (P : Pairing) (R : α → β → Prop) :
    EStateM.Result Halt Session α → EStateM.Result Halt Session β → Prop
  | ok {a : α} {b : β} {s t : Session} (same : R a b) (h : P.related s t) :
    Joined P R (.ok a s) (.ok b t)
  | error {e : Halt} {s t : Session} (h : P.halted e s t) : Joined P R (.error e s) (.error e t)

/-- What goes on from such results goes on alike if it does from all sessions that are related. -/
theorem Joined.bind {P : Pairing} {R : α → β → Prop} {S : γ → δ → Prop} {x : Play α} {y : Play β}
    {f : α → Play γ} {g : β → Play δ} {s t : Session} (first : P.Joined R (x s) (y t))
    (next : ∀ a b, R a b → ∀ {u v}, P.related u v → P.Joined S (f a u) (g b v)) :
    P.Joined S ((x >>= f) s) ((y >>= g) t) := by
  rw [Play.bind_apply, Play.bind_apply]
  generalize x s = r, y t = r' at first
  cases first with
  | ok same h => exact next _ _ same h
  | error h => exact .error h

/-- A variable is set in both, or it is refused in both. -/
theorem Joined.setVariable {P : Pairing} {s t : Session} {name : String} {value : Value}
    (same : t.vars = s.vars)
    (set : ∀ vars, s.vars.set name value = .ok vars →
      P.related { s with vars := vars } { t with vars := vars })
    (refused : ∀ error, s.vars.set name value = .error error → P.halted (.variable error) s t) :
    P.Joined Eq (Play.setVariable name value s) (Play.setVariable name value t) := by
  unfold Play.setVariable
  rw [same]
  cases is : s.vars.set name value with
  | error error => exact .error (refused error is)
  | ok vars => exact .ok rfl (set vars is)

/-- Two actions that come to such results from related sessions on. -/
structure Joins (P : Pairing) (R : α → β → Prop) (x : Play α) (y : Play β) : Prop where
  joined : ∀ {s t}, P.related s t → P.Joined R (x s) (y t)

namespace Joins

variable {P : Pairing} {R : α → β → Prop} {S : γ → δ → Prop} {x : Play α} {y : Play β}

/-! ### Putting actions together -/

theorem pure {a : α} {b : β} (same : R a b) :
    P.Joins R (Pure.pure a : Play α) (Pure.pure b : Play β) := ⟨.ok same⟩

theorem throw {e : Halt} (other : ∀ error, e ≠ .variable error) :
    P.Joins R (MonadExcept.throw e : Play α) (MonadExcept.throw e : Play β) :=
  ⟨fun h => .error (P.halts other h)⟩

theorem bind {f : α → Play γ} {g : β → Play δ} (first : P.Joins R x y)
    (next : ∀ a b, R a b → P.Joins S (f a) (g b)) : P.Joins S (x >>= f) (y >>= g) :=
  ⟨fun h => (first.joined h).bind fun a b same => (next a b same).joined⟩

/-- What goes on from one result goes on from that alone. -/
theorem andThen {x y : Play α} {f : α → Play γ} {g : α → Play δ} (first : P.Joins Eq x y)
    (next : ∀ a, P.Joins S (f a) (g a)) : P.Joins S (x >>= f) (y >>= g) :=
  first.bind fun a _ same => same ▸ next a

theorem reads {f : Session → Play α} {g : Session → Play β}
    (next : ∀ s t, P.related s t → P.Joins R (f s) (g t)) : P.Joins R (get >>= f) (get >>= g) :=
  ⟨fun {s t} h => (next s t h).joined h⟩

theorem ite {c : Prop} [Decidable c] {x' : Play α} {y' : Play β} (yes : P.Joins R x y)
    (no : P.Joins R x' y') : P.Joins R (if c then x else x') (if c then y else y') := by
  split
  · exact yes
  · exact no

theorem forM {f : α → Play Unit} {g : β → Play Unit} {xs : List α} {ys : List β}
    (alike : List.Forall₂ R xs ys) (h : ∀ a b, R a b → P.Joins Eq (f a) (g b)) :
    P.Joins Eq (xs.forM f) (ys.forM g) := by
  induction alike with
  | nil => exact .pure rfl
  | cons same _ ih => exact (h _ _ same).andThen fun _ => ih

/-! ### Errands -/

theorem advance : P.Joins Eq Play.advance Play.advance := by
  refine ⟨fun {s t} h => ?_⟩
  rw [Play.advance_eq, Play.advance_eq, P.stop h]
  cases s.host.stop? with
  | none => exact .ok rfl (P.frame h)
  | some stop => exact .error (P.halts nofun h)

theorem advanceUntil {test : Play Bool} {p : ButtonStates → Bool} (looks : Looks test p) (n : Nat) :
    P.Joins Eq (Play.advanceUntil test n) (Play.advanceUntil test n) := by
  induction n with
  | zero => exact .throw nofun
  | succ n ih =>
    refine ⟨fun {s t} h => ?_⟩
    have same : t.host.states = s.host.states := congrArg Outlook.states (P.outlook h)
    rw [looks.advanceUntil_succ, looks.advanceUntil_succ, same]
    split
    · exact .ok rfl h
    · exact (advance.andThen fun _ => ih).joined h

/-- **Errands join**, whatever the games. -/
theorem errand {x : Play α} (h : Play.Errand x) : P.Joins Eq x x := by
  induction h with
  | pure a => exact .pure rfl
  | bind first next ih ih' => exact ih.andThen ih'
  | look f is next ih =>
    refine ⟨fun {s t} h => ?_⟩
    rw [is, is, P.outlook h]
    exact (ih s.outlook).joined h
  | deed d mere is =>
    refine ⟨fun {s t} h => ?_⟩
    rw [is, is]
    exact .ok rfl (P.deed mere h)
  | frame => exact advance
  | await looks => exact advanceUntil looks _

end Joins

/-! ### One game -/

/-- A game beside itself, with a property that frames and mere deeds keep, and another one for where
it halts. -/
def diagonal (I : Session → Prop) (H : Halt → Session → Prop)
    (deed : ∀ {s} {d : Deed}, d.Mere → I s → I (d.apply s))
    (frame : ∀ {s}, I s → I { s with host := s.host.afterFrame })
    (halts : ∀ {e s}, (∀ error, e ≠ .variable error) → I s → H e s) : Pairing where
  related s t := t = s ∧ I s
  halted e s t := t = s ∧ H e s
  outlook h := by rw [h.1]
  stop h := by rw [h.1]
  deed mere h := ⟨by rw [h.1], deed mere h.2⟩
  frame h := ⟨by rw [h.1], frame h.2⟩
  halts other h := ⟨h.1, halts other h.2⟩

end Pairing

/-- What frames and mere deeds keep is kept by every errand. -/
theorem Play.Errand.keeps {α : Type} {x : Play α} (h : Errand x) {I : Session → Prop}
    (deed : ∀ {s} {d : Deed}, d.Mere → I s → I (d.apply s))
    (frame : ∀ {s}, I s → I { s with host := s.host.afterFrame }) : Keeps I x := by
  refine ⟨fun {s} hs => ?_⟩
  let P := Pairing.diagonal I (fun _ => I) deed frame fun _ h => h
  have joined : P.Joined Eq (x s) (x s) := (Pairing.Joins.errand h).joined ⟨rfl, hs⟩
  generalize x s = r at joined
  cases joined with
  | ok _ h => exact h.2
  | error h => exact h.2

end Overworld
