import Mathlib.Algebra.BigOperators.Group.List.Basic
import Mathlib.Data.List.Forall2
import Mathlib.Tactic

/-!
Water filling: one class of a list of elements is raised towards a common level out of a budget.

When the budget covers the whole need, every element of the class reaches the level. Otherwise
it is shared out evenly, the first elements getting one unit more. Passes with rising levels keep
the class even: all at the level, or the budget spent and no two further apart than one unit.
-/

namespace MezonSfu.WaterFill

open List

/-- A class of elements with a level that can be set. -/
structure Class (α : Type*) where
  mem : α → Bool
  level : α → ℕ
  raise : α → ℕ → α
  level_raise : ∀ a x, level (raise a x) = x
  mem_raise : ∀ a x, mem (raise a x) = mem a

variable {α : Type*} (C : Class α)

/-- An element of the class below the level `t`. -/
def Class.eligible (t : ℕ) (a : α) : Bool := C.mem a && decide (C.level a < t)

def Class.need (t : ℕ) (l : List α) : ℕ :=
  ((l.filter (C.eligible t)).map fun a => t - C.level a).sum

def Class.raiseAll (t : ℕ) (l : List α) : List α :=
  l.map fun a => if C.eligible t a then C.raise a t else a

/-- The eligible elements from number `i` on get `share` each, those before number `extra` one
more, and none more than it lacks. -/
def Class.shareOut (t share extra : ℕ) : ℕ → List α → ℕ → List α × ℕ
  | _, [], rest => ([], rest)
  | i, a :: l, rest =>
    if C.eligible t a then
      let increment := min (share + if i < extra then 1 else 0) (t - C.level a)
      let r := Class.shareOut t share extra (i + 1) l (rest - increment)
      (C.raise a (C.level a + increment) :: r.1, r.2)
    else
      let r := Class.shareOut t share extra i l rest
      (a :: r.1, r.2)

def Class.fill (t : ℕ) (l : List α) (rest : ℕ) : List α × ℕ :=
  let count := l.countP (C.eligible t)
  if count = 0 ∨ rest = 0 then (l, rest)
  else if C.need t l ≤ rest then (C.raiseAll t l, rest - C.need t l)
  else C.shareOut t (rest / count) (rest % count) 0 l rest

def Class.total (l : List α) : ℕ := (l.map C.level).sum

/-! ### What a pass changes -/

/-- An element after a pass: unchanged, or of the class and raised. -/
def Class.Raised (a b : α) : Prop := b = a ∨ (C.mem a = true ∧ ∃ x, C.level a ≤ x ∧ b = C.raise a x)

variable {C} {t share extra i rest c : ℕ} {l : List α} {a : α}

lemma eligible_iff : C.eligible t a ↔ C.mem a ∧ C.level a < t := by
  unfold Class.eligible
  rw [Bool.and_eq_true, decide_eq_true_eq]

lemma raised_refl (l : List α) : List.Forall₂ C.Raised l l := forall₂_same.2 fun _ _ => .inl rfl

lemma raised_raiseAll (l : List α) : List.Forall₂ C.Raised l (C.raiseAll t l) := by
  induction l with
  | nil => exact .nil
  | cons a l ih =>
    refine .cons ?_ ih
    dsimp only
    split
    · rename_i he
      obtain ⟨hm, hlt⟩ := eligible_iff.1 he
      exact .inr ⟨hm, t, hlt.le, rfl⟩
    · exact .inl rfl

lemma raised_shareOut : List.Forall₂ C.Raised l (C.shareOut t share extra i l rest).1 := by
  induction l generalizing i rest with
  | nil => exact .nil
  | cons a l ih =>
    unfold Class.shareOut
    split
    · rename_i he
      exact .cons (.inr ⟨(eligible_iff.1 he).1, _, Nat.le_add_right _ _, rfl⟩) ih
    · exact .cons (.inl rfl) ih

/-- **A pass only raises elements of its class.** -/
lemma raised_fill : List.Forall₂ C.Raised l (C.fill t l rest).1 := by
  unfold Class.fill
  dsimp only
  split_ifs
  · exact raised_refl l
  · exact raised_raiseAll l
  · exact raised_shareOut

variable {l' : List α}

lemma exists_of_forall₂ {R : α → α → Prop} (h : List.Forall₂ R l l') {b : α}
    (hb : b ∈ l') : ∃ a ∈ l, R a b := by
  induction h with
  | nil => cases hb
  | cons hab _ ih =>
    rcases mem_cons.1 hb with rfl | hb
    · exact ⟨_, .head _, hab⟩
    · obtain ⟨a, ha, hr⟩ := ih hb
      exact ⟨a, .tail _ ha, hr⟩

lemma map_fill {β : Type*} (f : α → β) (hf : ∀ a x, f (C.raise a x) = f a) :
    (C.fill t l rest).1.map f = l.map f := by
  have hr : List.Forall₂ C.Raised l (C.fill t l rest).1 := raised_fill
  generalize (C.fill t l rest).1 = l' at hr
  induction hr with
  | nil => rfl
  | cons hab _ ih =>
    rw [map_cons, map_cons, ih]
    rcases hab with rfl | ⟨-, x, -, rfl⟩
    · rfl
    · rw [hf]

lemma fill_zero : C.fill t l 0 = (l, 0) := by
  exact if_pos (.inr rfl)

lemma total_raiseAll : C.total (C.raiseAll t l) = C.total l + C.need t l := by
  unfold Class.total Class.need Class.raiseAll
  induction l with
  | nil => rfl
  | cons a l ih =>
    by_cases he : C.eligible t a
    · have hlt := (eligible_iff.1 he).2
      simp only [map_cons, he, if_true, sum_cons, filter_cons_of_pos he, C.level_raise] at ih ⊢
      omega
    · simp only [map_cons, he, sum_cons, filter_cons_of_neg he] at ih ⊢
      simp only [Bool.false_eq_true, if_false]
      omega

/-- What `k` elements from number `i` on are owed. -/
def owed (share extra i k : ℕ) : ℕ := k * share + (min (i + k) extra - min i extra)

lemma owed_succ (share extra i k : ℕ) :
    owed share extra i (k + 1) =
      (share + if i < extra then 1 else 0) + owed share extra (i + 1) k := by
  unfold owed
  rw [Nat.succ_mul]
  split <;> omega

lemma total_shareOut (h : owed share extra i (l.countP (C.eligible t)) ≤ rest) :
    let r := C.shareOut t share extra i l rest
    C.total r.1 + r.2 = C.total l + rest := by
  unfold Class.total at *
  induction l generalizing i rest with
  | nil => rfl
  | cons a l ih =>
    unfold Class.shareOut
    by_cases he : C.eligible t a
    · rw [countP_cons_of_pos he, owed_succ] at h
      rw [if_pos he]
      set increment := min (share + if i < extra then 1 else 0) (t - C.level a)
      have hrest := @ih (i + 1) (rest - increment) (by omega)
      simp only [map_cons, sum_cons, C.level_raise]
      omega
    · rw [countP_cons_of_neg he] at h
      rw [if_neg he]
      have hrest := ih h
      simp only [map_cons, sum_cons]
      omega

/-- **A pass conserves** levels and budget together. -/
lemma total_fill : C.total (C.fill t l rest).1 + (C.fill t l rest).2 = C.total l + rest := by
  set el := C.eligible t
  unfold Class.fill
  dsimp only
  split_ifs with h1 h2
  · rfl
  · rw [total_raiseAll]
    omega
  · apply total_shareOut
    unfold owed
    rw [Nat.zero_min, Nat.sub_zero, Nat.zero_add]
    have hdiv := Nat.div_add_mod rest (l.countP el)
    calc l.countP el * (rest / l.countP el) +
          min (l.countP el) (rest % l.countP el)
        ≤ l.countP el * (rest / l.countP el) +
          rest % l.countP el := Nat.add_le_add_left (min_le_right _ _) _
      _ = rest := hdiv

lemma exists_pos_of_raised (h : List.Forall₂ C.Raised l l')
    (hlt : C.total l < C.total l') : ∃ b ∈ l', C.mem b ∧ 0 < C.level b := by
  unfold Class.total at hlt
  induction h with
  | nil => exact absurd hlt (Nat.lt_irrefl _)
  | @cons a b l l' hab _ ih =>
    rw [map_cons, map_cons, sum_cons, sum_cons] at hlt
    by_cases hpos : C.mem b ∧ 0 < C.level b
    · exact ⟨b, .head _, hpos⟩
    have hle : C.level b ≤ C.level a := by
      rcases hab with rfl | ⟨hm, x, -, rfl⟩
      · exact le_rfl
      · rw [C.mem_raise, not_and, not_lt] at hpos
        exact (hpos hm).trans (Nat.zero_le _)
    obtain ⟨d, hd, hdpos⟩ := ih (by omega)
    exact ⟨d, .tail _ hd, hdpos⟩

/-! ### Evenness -/

variable (C) in
/-- The class is even at the level `t`: every element at `t`, or the budget spent, none above `t`
and no two further apart than one unit. -/
def Class.Even (t : ℕ) (l : List α) (rest : ℕ) : Prop :=
  (∀ a ∈ l, C.mem a = true → C.level a = t) ∨
    (rest = 0 ∧ ∃ c, c ≤ t ∧ ∀ a ∈ l, C.mem a = true →
      c ≤ C.level a ∧ C.level a ≤ c + 1 ∧ C.level a ≤ t)

lemma Class.Even.le (h : C.Even t l rest) (ha : a ∈ l) (hm : C.mem a = true) : C.level a ≤ t := by
  rcases h with hall | ⟨-, c, -, hall⟩
  · exact (hall a ha hm).le
  · exact (hall a ha hm).2.2

lemma Class.Even.near (h : C.Even t l rest) {b : α} (ha : a ∈ l) (hb : b ∈ l)
    (hma : C.mem a) (hmb : C.mem b) : C.level a ≤ C.level b + 1 := by
  rcases h with hall | ⟨-, c, -, hall⟩
  · rw [hall a ha hma, hall b hb hmb]
    exact Nat.le_succ _
  · have h1 := hall a ha hma
    have h2 := hall b hb hmb
    omega

lemma Class.Even.eq (h : C.Even t l rest) (hrest : 0 < rest) (ha : a ∈ l)
    (hm : C.mem a) : C.level a = t := by
  rcases h with hall | ⟨hzero, -⟩
  · exact hall a ha hm
  · omega

lemma shareOut_even (hall : ∀ a ∈ l, C.mem a → C.level a = c)
    (hlt : c + share < t) (hrest : rest = owed share extra i (l.countP (C.eligible t))) :
    let r := C.shareOut t share extra i l rest
    r.2 = 0 ∧ ∀ b ∈ r.1, C.mem b →
        c + share ≤ C.level b ∧ C.level b ≤ c + share + 1 := by
  induction l generalizing i rest with
  | nil =>
    unfold Class.shareOut
    refine ⟨?_, fun b hb => nomatch hb⟩
    rw [hrest]
    simp [owed]
  | cons a l ih =>
    have hl : ∀ b ∈ l, C.mem b → C.level b = c := fun b hb => hall b (.tail _ hb)
    unfold Class.shareOut
    by_cases he : C.eligible t a
    · have ha := hall a (.head _) (eligible_iff.1 he).1
      rw [countP_cons_of_pos he, owed_succ] at hrest
      rw [if_pos he]
      -- the share never exceeds what an element lacks
      have hmin : min (share + if i < extra then 1 else 0) (t - C.level a) =
          share + if i < extra then 1 else 0 := by
        apply min_eq_left
        rw [ha]
        split <;> omega
      rw [hmin]
      obtain ⟨hzero, heven⟩ :=
        @ih (i + 1) (rest - (share + if i < extra then 1 else 0)) hl (by omega)
      refine ⟨hzero, ?_⟩
      intro b hb hm
      rcases mem_cons.1 hb with rfl | hb
      · rw [C.level_raise, ha]
        split <;> omega
      · exact heven b hb hm
    · rw [countP_cons_of_neg he] at hrest
      rw [if_neg he]
      obtain ⟨hzero, heven⟩ := ih hl hrest
      refine ⟨hzero, ?_⟩
      intro b hb hm
      rcases mem_cons.1 hb with rfl | hb
      · -- an element at `c` is eligible
        exact absurd (eligible_iff.2 ⟨hm, by rw [hall b (.head _) hm]; omega⟩) he
      · exact heven b hb hm

lemma raiseAll_eq (hall : ∀ a ∈ l, C.mem a → C.level a ≤ t) :
    ∀ b ∈ C.raiseAll t l, C.mem b → C.level b = t := by
  intro b hb hm
  obtain ⟨a, ha, rfl⟩ := mem_map.1 hb
  by_cases he : C.eligible t a
  · rw [if_pos he, C.level_raise]
  · rw [if_neg he] at hm ⊢
    have hle := hall a ha hm
    have hnot : ¬ C.level a < t := fun hlt => he (eligible_iff.2 ⟨hm, hlt⟩)
    omega

lemma need_of_flat (hall : ∀ a ∈ l, C.mem a → C.level a = c) :
    C.need t l = l.countP (C.eligible t) * (t - c) := by
  unfold Class.need
  rw [map_congr_left (g := fun _ => t - c), map_const', sum_replicate,
    countP_eq_length_filter, smul_eq_mul]
  intro a ha
  obtain ⟨hin, he⟩ := mem_filter.1 ha
  rw [hall a hin (eligible_iff.1 he).1]

lemma shareOut_of_flat (hall : ∀ a ∈ l, C.mem a → C.level a = c)
    (hcount : l.countP (C.eligible t) ≠ 0) (hlt : rest < C.need t l) :
    let n := l.countP (C.eligible t)
    (C.shareOut t (rest / n) (rest % n) 0 l rest).2 = 0 ∧ c + rest / n < t ∧
      ∀ b ∈ (C.shareOut t (rest / n) (rest % n) 0 l rest).1, C.mem b →
        c + rest / n ≤ C.level b ∧ C.level b ≤ c + rest / n + 1 := by
  intro n
  rw [need_of_flat hall] at hlt
  have hshare : rest / n < t - c := Nat.div_lt_of_lt_mul hlt
  have hextra := Nat.mod_lt rest (Nat.pos_of_ne_zero hcount : 0 < n)
  have hdiv := Nat.div_add_mod rest n
  have howed : rest = owed (rest / n) (rest % n) 0 n := by
    unfold owed
    rw [Nat.zero_min, Nat.sub_zero, Nat.zero_add, min_eq_right hextra.le]
    exact hdiv.symm
  have hbelow : c + rest / n < t := by
    rw [Nat.add_comm]
    exact Nat.add_lt_of_lt_sub hshare
  obtain ⟨hzero, heven⟩ := shareOut_even hall hbelow howed
  exact ⟨hzero, hbelow, heven⟩

variable {t' : ℕ}

/-- **A pass to a higher level keeps the class even.** -/
lemma Class.Even.fill (h : C.Even t l rest) (hle : t ≤ t') :
    C.Even t' (C.fill t' l rest).1 (C.fill t' l rest).2 := by
  rcases h with hall | ⟨rfl, c, hc, hall⟩
  · unfold Class.fill
    dsimp only
    split_ifs with h1 h2
    · rcases h1 with hcount | rfl
      · -- nobody is below the new level
        left
        intro a ha hm
        have hnot := countP_eq_zero.1 hcount a ha
        rw [eligible_iff, not_and, not_lt] at hnot
        have := hnot hm
        have := hall a ha hm
        omega
      · right
        refine ⟨rfl, t, hle, fun a ha hm => ?_⟩
        rw [hall a ha hm]
        omega
    · left
      apply raiseAll_eq
      intro a ha hm
      rw [hall a ha hm]
      exact hle
    · rw [not_or] at h1
      obtain ⟨hzero, hshare, heven⟩ := shareOut_of_flat hall h1.1 (not_le.1 h2)
      right
      refine ⟨hzero, t + rest / l.countP (C.eligible t'), hshare.le, ?_⟩
      intro a ha hm
      have := heven a ha hm
      omega
  · rw [fill_zero]
    exact .inr ⟨rfl, c, hc.trans hle, fun a ha hm =>
      ⟨(hall a ha hm).1, (hall a ha hm).2.1, (hall a ha hm).2.2.trans hle⟩⟩

variable {D : Class α}

lemma Class.Even.fill_other (h : D.Even t l rest)
    (hd : ∀ a x, C.mem a → D.mem (C.raise a x) = false) :
    D.Even t (C.fill t' l rest).1 (C.fill t' l rest).2 := by
  rcases h with hall | ⟨rfl, hc⟩
  · left
    intro b hb hm
    obtain ⟨a, ha, hr⟩ := exists_of_forall₂ raised_fill hb
    rcases hr with rfl | ⟨hmem, x, -, rfl⟩
    · exact hall b ha hm
    · rw [hd a x hmem] at hm
      cases hm
  · rw [fill_zero]
    exact .inr ⟨rfl, hc⟩

/-! ### A larger budget -/

variable (C) in
def Class.Below (l l' : List α) : Prop := List.Forall₂ (fun a b => C.level a ≤ C.level b) l l'

lemma Class.Below.refl (l : List α) : C.Below l l := forall₂_same.2 fun _ _ => le_rfl

lemma Class.Below.raised {l l'' : List α} (hlevel : D.level = C.level)
    (h : C.Below l l') (hr : List.Forall₂ D.Raised l' l'') : C.Below l l'' := by
  induction h generalizing l'' with
  | nil =>
    cases hr
    exact .nil
  | cons hab _ ih =>
    cases hr with
    | cons hbc hr =>
      refine .cons (hab.trans ?_) (ih hr)
      rcases hbc with rfl | ⟨-, x, hx, rfl⟩
      · exact le_rfl
      · rw [← hlevel, D.level_raise]
        exact hx

lemma shareOut_below_shareOut {share' extra' rest' : ℕ}
    (hle : ∀ j, share + (if j < extra then 1 else 0) ≤ share' + if j < extra' then 1 else 0) :
    C.Below (C.shareOut t share extra i l rest).1 (C.shareOut t share' extra' i l rest').1 := by
  induction l generalizing i rest rest' with
  | nil => exact .nil
  | cons a l ih =>
    unfold Class.shareOut
    split
    · refine .cons ?_ ih
      rw [C.level_raise, C.level_raise]
      exact Nat.add_le_add_left (min_le_min_right _ (hle i)) _
    · exact .cons le_rfl ih

lemma shareOut_below_raiseAll : C.Below (C.shareOut t share extra i l rest).1 (C.raiseAll t l) := by
  induction l generalizing i rest with
  | nil => exact .nil
  | cons a l ih =>
    unfold Class.shareOut Class.raiseAll
    rw [map_cons]
    split
    · rename_i he
      refine .cons ?_ ih
      have hlt := (eligible_iff.1 he).2
      rw [C.level_raise, C.level_raise]
      omega
    · exact .cons le_rfl ih

lemma share_mono {r r' n : ℕ} (hle : r ≤ r') (j : ℕ) :
    r / n + (if j < r % n then 1 else 0) ≤ r' / n + if j < r' % n then 1 else 0 := by
  rcases (Nat.div_le_div_right hle : r / n ≤ r' / n).lt_or_eq with hlt | heq
  · have : (if j < r % n then 1 else 0) ≤ 1 := by split <;> omega
    omega
  · have h1 := Nat.div_add_mod r n
    have h2 := Nat.div_add_mod r' n
    rw [heq] at h1 ⊢
    split <;> split <;> omega

variable (C) in
/-- One filling is behind another: nothing differs but the budget, or its budget is spent and no
level is higher. -/
def Class.Behind (p q : List α × ℕ) : Prop := (p.1 = q.1 ∧ p.2 ≤ q.2) ∨ (p.2 = 0 ∧ C.Below p.1 q.1)

lemma Class.Behind.below {p q : List α × ℕ} (h : C.Behind p q) : C.Below p.1 q.1 := by
  rcases h with ⟨heq, -⟩ | ⟨-, hbelow⟩
  · rw [heq]
    exact .refl q.1
  · exact hbelow

/-- **A pass over an even class keeps a filling behind.** -/
lemma Class.Behind.fill {p q : List α × ℕ} (hlevel : D.level = C.level) (h : C.Behind p q)
    (heven : D.Even t p.1 p.2) : C.Behind (D.fill t' p.1 p.2) (D.fill t' q.1 q.2) := by
  set el := D.eligible t'
  -- what is spent stays behind
  have hspent : ∀ {p q : List α × ℕ}, p.2 = 0 → C.Below p.1 q.1 →
      C.Behind (D.fill t' p.1 p.2) (D.fill t' q.1 q.2) := by
    intro p q hzero hbelow
    rw [hzero, fill_zero]
    exact .inr ⟨rfl, hbelow.raised hlevel raised_fill⟩
  rcases h with ⟨heq, hle⟩ | ⟨hzero, hbelow⟩
  · by_cases hzero : p.2 = 0
    · exact hspent hzero (heq ▸ .refl _)
    obtain ⟨l, r⟩ := p
    obtain ⟨l', r'⟩ := q
    subst heq
    have hflat : ∀ a ∈ l, D.mem a → D.level a = t :=
      fun a ha => heven.eq (Nat.pos_of_ne_zero hzero) ha
    unfold Class.fill
    by_cases hcount : l.countP el = 0
    · rw [if_pos (.inl hcount), if_pos (.inl hcount)]
      exact .inl ⟨rfl, hle⟩
    rw [if_neg (not_or.2 ⟨hcount, hzero⟩), if_neg (not_or.2 ⟨hcount, by omega⟩)]
    by_cases hneed : D.need t' l ≤ r
    · rw [if_pos hneed, if_pos (hneed.trans hle)]
      exact .inl ⟨rfl, Nat.sub_le_sub_right hle _⟩
    rw [if_neg hneed]
    right
    refine ⟨(shareOut_of_flat hflat hcount (not_le.1 hneed)).1, ?_⟩
    have hbelow : D.Below (D.shareOut t' (r / l.countP el)
        (r % l.countP el) 0 l r).1
        (if D.need t' l ≤ r' then (D.raiseAll t' l, r' - D.need t' l)
          else D.shareOut t' (r' / l.countP el)
            (r' % l.countP el) 0 l r').1 := by
      split
      · exact shareOut_below_raiseAll
      · exact shareOut_below_shareOut (share_mono hle)
    unfold Class.Below at hbelow ⊢
    rwa [hlevel] at hbelow
  · exact hspent hzero hbelow

end MezonSfu.WaterFill
