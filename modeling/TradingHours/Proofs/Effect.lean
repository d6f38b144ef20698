import TradingHours.Trail
/-!
Work that changes a state and may fail: what its steps do, and the conditions that it leads from and
to, whether it fails or not.
-/
namespace TradingHours

theorem ok_bind_iff {ε α β : Type} {x : Except ε α} {f : α → Except ε β} {b : β} :
    x >>= f = .ok b ↔ ∃ a, x = .ok a ∧ f a = .ok b := by
  cases x <;> simp [bind, Except.bind]

section Run

variable {ε σ α β : Type}

def exec (x : ExceptT ε (StateM σ) α) (s : σ) : Except ε α × σ := x.run.run s

def leaves (x : ExceptT ε (StateM σ) α) (s : σ) : σ := (exec x s).2

variable (x : ExceptT ε (StateM σ) α) (f : α → ExceptT ε (StateM σ) β)
  (h : ε → ExceptT ε (StateM σ) α) (s : σ)

@[simp] theorem exec_pure (a : α) : exec (pure a : ExceptT ε (StateM σ) α) s = (.ok a, s) := rfl

@[simp] theorem exec_throw (e : ε) :
    exec (throw e : ExceptT ε (StateM σ) α) s = (.error e, s) := rfl

@[simp] theorem exec_ofExcept (r : Except ε α) :
    exec (ofExcept r : ExceptT ε (StateM σ) α) s = (r, s) := by
  cases r <;> rfl

@[simp] theorem exec_get : exec (get : ExceptT ε (StateM σ) σ) s = (.ok s, s) := rfl

@[simp] theorem exec_modify (g : σ → σ) :
    exec (modify g : ExceptT ε (StateM σ) PUnit) s = (.ok ⟨⟩, g s) := rfl

theorem exec_bind : exec (x >>= f) s =
    match exec x s with
    | (.ok a, s') => exec (f a) s'
    | (.error e, s') => (.error e, s') := by
  unfold exec ExceptT.run StateT.run
  simp only [bind, ExceptT.bind, ExceptT.mk, StateT.bind]
  cases x s with
  | mk result s' => cases result <;> rfl

theorem exec_tryCatch : exec (tryCatch x h) s =
    match exec x s with
    | (.ok a, s') => (.ok a, s')
    | (.error e, s') => exec (h e) s' := by
  unfold exec ExceptT.run StateT.run
  simp only [tryCatch, tryCatchThe, MonadExceptOf.tryCatch, ExceptT.tryCatch, ExceptT.mk, bind,
    StateT.bind]
  cases x s with
  | mk result s' => cases result <;> rfl

variable {x f h s} {a : α} {e : ε} {s' : σ}

theorem exec_bind_ok (hx : exec x s = (.ok a, s')) : exec (x >>= f) s = exec (f a) s' := by
  rw [exec_bind, hx]

theorem exec_bind_error (hx : exec x s = (.error e, s')) : exec (x >>= f) s = (.error e, s') := by
  rw [exec_bind, hx]

theorem exec_of_fst {r : Except ε α} (hx : (exec x s).1 = r) : exec x s = (r, leaves x s) :=
  Prod.ext hx rfl

theorem exec_get_bind (k : σ → ExceptT ε (StateM σ) α) : exec (get >>= k) s = exec (k s) s :=
  exec_bind_ok rfl

end Run

section Conditions

variable {ε σ α β : Type} {P P' : σ → Prop} {x : ExceptT ε (StateM σ) α}
  {f : α → ExceptT ε (StateM σ) β} {h : ε → ExceptT ε (StateM σ) α} {Q R : Except ε α → σ → Prop}
  {T : Except ε β → σ → Prop}

/-- From every state that meets `P`, work ends with a result and a state that meet `Q`. -/
def Leads (P : σ → Prop) (x : ExceptT ε (StateM σ) α) (Q : Except ε α → σ → Prop) : Prop :=
  ∀ s, P s → Q (exec x s).1 (exec x s).2

def Keeps (P : σ → Prop) (x : ExceptT ε (StateM σ) α) : Prop := Leads P x fun _ => P

theorem Keeps.leaves (hx : Keeps P x) {s : σ} (hs : P s) : P (leaves x s) := hx s hs

theorem Leads.imp (hx : Leads P x Q) (hP : ∀ s, P' s → P s) (hQ : ∀ r s, Q r s → R r s) :
    Leads P' x R :=
  fun s hs => hQ _ _ (hx s (hP s hs))

theorem Leads.bind (hx : Leads P x Q) (hf : ∀ a, Leads (Q (.ok a)) (f a) T)
    (he : ∀ e s, Q (.error e) s → T (.error e) s) : Leads P (x >>= f) T := by
  intro s hs
  have hq := hx s hs
  rw [exec_bind]
  cases hr : exec x s with
  | mk result s' =>
    rw [hr] at hq
    cases result with
    | ok a => exact hf a s' hq
    | error e => exact he e s' hq

theorem Leads.tryCatch (hx : Leads P x Q) (hok : ∀ a s, Q (.ok a) s → R (.ok a) s)
    (hh : ∀ e, Leads (Q (.error e)) (h e) R) : Leads P (tryCatch x h) R := by
  intro s hs
  have hq := hx s hs
  rw [exec_tryCatch]
  cases hr : exec x s with
  | mk result s' =>
    rw [hr] at hq
    cases result with
    | ok a => exact hok a s' hq
    | error e => exact hh e s' hq

theorem Keeps.pure (a : α) : Keeps P (pure a : ExceptT ε (StateM σ) α) := fun _ hs => hs

theorem Keeps.throw (e : ε) : Keeps P (throw e : ExceptT ε (StateM σ) α) := fun _ hs => hs

theorem Keeps.get : Keeps P (get : ExceptT ε (StateM σ) σ) := fun _ hs => hs

theorem Keeps.ofExcept (r : Except ε α) : Keeps P (ofExcept r : ExceptT ε (StateM σ) α) := by
  intro s hs
  rwa [exec_ofExcept]

theorem Keeps.modify {g : σ → σ} (hg : ∀ s, P s → P (g s)) :
    Keeps P (modify g : ExceptT ε (StateM σ) PUnit) := hg

theorem Keeps.bind (hx : Keeps P x) (hf : ∀ a, Keeps P (f a)) : Keeps P (x >>= f) :=
  Leads.bind hx hf fun _ _ hs => hs

theorem Keeps.ofExcept_bind {r : Except ε α} (hf : ∀ a, r = .ok a → Keeps P (f a)) :
    Keeps P ((MonadExcept.ofExcept r : ExceptT ε (StateM σ) α) >>= f) := by
  cases r with
  | ok a => exact hf a rfl
  | error e => exact .throw e

theorem Keeps.tryCatch (hx : Keeps P x) (hh : ∀ e, Keeps P (h e)) : Keeps P (tryCatch x h) :=
  Leads.tryCatch hx (fun _ _ hs => hs) hh

theorem Keeps.foldlM {step : β → α → ExceptT ε (StateM σ) β} {l : List α}
    (hs : ∀ b, ∀ a ∈ l, Keeps P (step b a)) (b : β) : Keeps P (l.foldlM step b) := by
  induction l generalizing b with
  | nil => exact .pure b
  | cons a l ih =>
    rw [List.foldlM_cons]
    exact (hs b a List.mem_cons_self).bind fun b' =>
      ih (fun b a' ha' => hs b a' (List.mem_cons_of_mem a ha')) b'

theorem Keeps.mapM {step : α → ExceptT ε (StateM σ) β} (hs : ∀ a, Keeps P (step a)) (l : List α) :
    Keeps P (l.mapM step) := by
  induction l with
  | nil => exact .pure []
  | cons a l ih =>
    rw [List.mapM_cons]
    exact (hs a).bind fun b => ih.bind fun bs => .pure (b :: bs)

end Conditions

section Success

variable {ε σ α β : Type} {x : ExceptT ε (StateM σ) α} {f : α → ExceptT ε (StateM σ) β}
  {s s' : σ} {a : α} {b : β}

/-- Work that starts in `s` returns `a` and ends in `s'`. -/
def Returns (x : ExceptT ε (StateM σ) α) (s : σ) (a : α) (s' : σ) : Prop :=
  exec x s = (.ok a, s')

theorem Returns.unique {a' : α} {s₁ : σ} (h : Returns x s a s') (h' : Returns x s a' s₁) :
    a = a' ∧ s' = s₁ := by
  rw [Returns] at h h'
  rw [h] at h'
  exact ⟨Except.ok.inj (congrArg Prod.fst h'), congrArg Prod.snd h'⟩

theorem returns_of_isOk (h : (exec x s).1.isOk = true) : ∃ a, Returns x s a (exec x s).2 := by
  cases hr : exec x s with
  | mk result s₁ =>
    rw [hr] at h
    cases result with
    | ok a => exact ⟨a, hr⟩
    | error e => cases h

theorem returns_of_map {γ : Type} {g : α → γ} {c : γ}
    (h : (exec x s).1.toOption.map g = some c) : ∃ a, Returns x s a (exec x s).2 ∧ g a = c := by
  cases hr : exec x s with
  | mk result s₁ =>
    rw [hr] at h
    cases result with
    | ok a => exact ⟨a, hr, Option.some_inj.1 h⟩
    | error e => cases h

theorem returns_bind :
    Returns (x >>= f) s b s' ↔ ∃ a s₁, Returns x s a s₁ ∧ Returns (f a) s₁ b s' := by
  unfold Returns
  rw [exec_bind]
  cases hr : exec x s with
  | mk result s₁ =>
    cases result with
    | ok a =>
      constructor
      · intro h
        exact ⟨a, s₁, rfl, h⟩
      · rintro ⟨_, _, h, h'⟩
        cases h
        exact h'
    | error e => simp

theorem returns_tryCatch {h : ε → ExceptT ε (StateM σ) α} :
    Returns (tryCatch x h) s a s' ↔
      Returns x s a s' ∨ ∃ e s₁, exec x s = (.error e, s₁) ∧ Returns (h e) s₁ a s' := by
  unfold Returns
  rw [exec_tryCatch]
  cases hr : exec x s with
  | mk result s₁ =>
    cases result with
    | ok a =>
      refine ⟨.inl, ?_⟩
      rintro (h | ⟨_, _, h, -⟩)
      · exact h
      · cases h
    | error e =>
      constructor
      · intro h
        exact .inr ⟨e, s₁, rfl, h⟩
      · rintro (h | ⟨_, _, h, h'⟩)
        · cases h
        · cases h
          exact h'

@[simp] theorem not_returns_throw {e : ε} :
    ¬ Returns (throw e : ExceptT ε (StateM σ) α) s a s' := by
  simp [Returns]

@[simp] theorem returns_pure {a' : α} :
    Returns (pure a : ExceptT ε (StateM σ) α) s a' s' ↔ a = a' ∧ s = s' := by
  simp [Returns]

@[simp] theorem returns_ofExcept {r : Except ε α} :
    Returns (ofExcept r : ExceptT ε (StateM σ) α) s a s' ↔ r = .ok a ∧ s = s' := by
  simp [Returns]

@[simp] theorem returns_get {t : σ} :
    Returns (get : ExceptT ε (StateM σ) σ) s t s' ↔ s = t ∧ s = s' := by
  simp [Returns]

theorem Leads.of_returns {P : σ → Prop} {Q : Except ε α → σ → Prop} (hx : Leads P x Q) (hs : P s)
    (hr : Returns x s a s') : Q (.ok a) s' := by
  have h := hx s hs
  rwa [hr] at h

theorem Keeps.of_returns {P : σ → Prop} (hx : Keeps P x) (hs : P s) (hr : Returns x s a s') :
    P s' :=
  Leads.of_returns hx hs hr

def NeverFails (x : ExceptT ε (StateM σ) α) : Prop := ∀ s, ∃ a s', Returns x s a s'

theorem NeverFails.pure (a : α) : NeverFails (pure a : ExceptT ε (StateM σ) α) :=
  fun s => ⟨a, s, rfl⟩

theorem NeverFails.bind (hx : NeverFails x) (hf : ∀ a, NeverFails (f a)) :
    NeverFails (x >>= f) := by
  intro s
  obtain ⟨a, s₁, ha⟩ := hx s
  obtain ⟨b, s₂, hb⟩ := hf a s₁
  exact ⟨b, s₂, returns_bind.2 ⟨a, s₁, ha, hb⟩⟩

theorem NeverFails.tryCatch {h : ε → ExceptT ε (StateM σ) α} (hh : ∀ e, NeverFails (h e)) :
    NeverFails (tryCatch x h) := by
  intro s
  cases hr : exec x s with
  | mk result s₁ =>
    cases result with
    | ok a => exact ⟨a, s₁, returns_tryCatch.2 (.inl hr)⟩
    | error e =>
      obtain ⟨a, s', hreturns⟩ := hh e s₁
      exact ⟨a, s', returns_tryCatch.2 (.inr ⟨e, s₁, hr, hreturns⟩)⟩

theorem NeverFails.foldlM {step : β → α → ExceptT ε (StateM σ) β}
    (hs : ∀ b a, NeverFails (step b a)) (l : List α) (b : β) : NeverFails (l.foldlM step b) := by
  induction l generalizing b with
  | nil => exact .pure b
  | cons a l ih =>
    rw [List.foldlM_cons]
    exact (hs b a).bind ih

def NeverThrows (e : ε) (x : ExceptT ε (StateM σ) α) : Prop := ∀ s, (exec x s).1 ≠ .error e

namespace NeverThrows

variable {e : ε}

theorem pure (a : α) : NeverThrows e (pure a : ExceptT ε (StateM σ) α) := by
  rintro s ⟨⟩

theorem throw {e' : ε} (h : e' ≠ e) : NeverThrows e (throw e' : ExceptT ε (StateM σ) α) := by
  rintro s ⟨⟩
  exact h rfl

theorem get : NeverThrows e (get : ExceptT ε (StateM σ) σ) := by
  rintro s ⟨⟩

theorem modify (g : σ → σ) : NeverThrows e (modify g : ExceptT ε (StateM σ) PUnit) := by
  rintro s ⟨⟩

theorem bind (hx : NeverThrows e x) (hf : ∀ a, NeverThrows e (f a)) : NeverThrows e (x >>= f) := by
  intro s
  have hs := hx s
  rw [exec_bind]
  cases hr : exec x s with
  | mk result s' =>
    rw [hr] at hs
    cases result with
    | ok a => exact hf a s'
    | error e' => exact fun h => hs (by cases h; rfl)

theorem tryCatch {h : ε → ExceptT ε (StateM σ) α} (hx : NeverThrows e x)
    (hh : ∀ e' ≠ e, NeverThrows e (h e')) : NeverThrows e (tryCatch x h) := by
  intro s
  have hs := hx s
  rw [exec_tryCatch]
  cases hr : exec x s with
  | mk result s' =>
    rw [hr] at hs
    cases result with
    | ok a => exact nofun
    | error e' => exact hh e' (fun heq => hs (by rw [heq])) s'

end NeverThrows

end Success

end TradingHours
