/-
Tries that are made one after another, each in the world that the one before it has left. Either none of
them comes to what was hoped for, or there is a first one that does, and those before it do not.
-/
import Mathlib.Data.List.Basic

namespace Muster

variable {ε ρ ω : Type}

/-- What comes of each of several tries, made one after another. -/
def tries (ask : ε → ω → ρ × ω) : List ε → ω → List (ε × ρ) × ω
  | [], w => ([], w)
  | e :: es, w => ((e, (ask e w).1) :: (tries ask es (ask e w).2).1, (tries ask es (ask e w).2).2)

variable {ask : ε → ω → ρ × ω} {w : ω}

theorem tries_append (front back : List ε) : tries ask (front ++ back) w =
    ((tries ask front w).1 ++ (tries ask back (tries ask front w).2).1,
      (tries ask back (tries ask front w).2).2) := by
  induction front generalizing w with
  | nil => rfl
  | cons e front ih => simp only [List.cons_append, tries, ih]

theorem tries_concat (front : List ε) (e : ε) : tries ask (front ++ [e]) w =
    ((tries ask front w).1 ++ [(e, (ask e (tries ask front w).2).1)],
      (ask e (tries ask front w).2).2) :=
  tries_append front [e]

theorem map_fst_tries (es : List ε) : (tries ask es w).1.map (·.1) = es := by
  induction es generalizing w with
  | nil => rfl
  | cons e es ih => simp only [tries, List.map_cons, ih]

/-- Where each try writes down what it does, all of it is written down in the order of the tries. -/
theorem tries_logged {κ : Type} {ask' : ε → ω × List κ → ρ × ω × List κ} {notes : ε → List κ}
    (h : ∀ e w log, ask' e (w, log) = ((ask e w).1, (ask e w).2, log ++ notes e))
    (es : List ε) (w : ω) (log : List κ) : tries ask' es (w, log) =
      ((tries ask es w).1, (tries ask es w).2, log ++ es.flatMap notes) := by
  induction es generalizing w log with
  | nil => rw [List.flatMap_nil, List.append_nil]; rfl
  | cons e es ih => simp only [tries, h, ih, List.flatMap_cons, List.append_assoc]

/-- The first try that comes to what was hoped for, if there is one. -/
theorem tries_split (ask : ε → ω → ρ × ω) (hoped : ρ → Prop) (es : List ε) (w : ω) :
    (∀ x ∈ (tries ask es w).1, ¬ hoped x.2) ∨
      ∃ front e back, es = front ++ e :: back ∧ (∀ x ∈ (tries ask front w).1, ¬ hoped x.2) ∧
        hoped (ask e (tries ask front w).2).1 := by
  induction es generalizing w with
  | nil => exact .inl nofun
  | cons e es ih =>
    by_cases hfirst : hoped (ask e w).1
    · exact .inr ⟨[], e, es, rfl, nofun, hfirst⟩
    · have hcons {front : List ε} (h : ∀ x ∈ (tries ask front (ask e w).2).1, ¬ hoped x.2) :
          ∀ x ∈ (tries ask (e :: front) w).1, ¬ hoped x.2 := by
        intro x hx
        rcases List.mem_cons.1 hx with rfl | hx
        · exact hfirst
        · exact h x hx
      rcases ih (ask e w).2 with hnone | ⟨front, d, back, rfl, hfront, hd⟩
      · exact .inl (hcons hnone)
      · exact .inr ⟨e :: front, d, back, rfl, hcons hfront, hd⟩

/-- The try that decides: the first one that comes to what was hoped for, or else the last one. -/
theorem tries_decided (ask : ε → ω → ρ × ω) (hoped : ρ → Prop) {es : List ε} (hes : es ≠ [])
    (w : ω) : ∃ front e back r v, es = front ++ e :: back ∧
      (∀ x ∈ (tries ask front w).1, ¬ hoped x.2) ∧ ask e (tries ask front w).2 = (r, v) ∧
      (hoped r ∨ ¬ hoped r ∧ back = []) := by
  rcases tries_split ask hoped es w with hnone | ⟨front, e, back, hsplit, hfront, hhoped⟩
  · rcases List.eq_nil_or_concat es with rfl | ⟨front, e, rfl⟩
    · exact absurd rfl hes
    · rcases hask : ask e (tries ask front w).2 with ⟨r, v⟩
      rw [List.concat_eq_append, tries_concat, hask] at hnone
      obtain ⟨hfront, hlast⟩ := List.forall_mem_append.1 hnone
      exact ⟨front, e, [], r, v, List.concat_eq_append, hfront, hask,
        .inr ⟨hlast (e, r) (List.mem_singleton_self _), rfl⟩⟩
  · rcases hask : ask e (tries ask front w).2 with ⟨r, v⟩
    rw [hask] at hhoped
    exact ⟨front, e, back, r, v, hsplit, hfront, hask, .inl hhoped⟩

end Muster
