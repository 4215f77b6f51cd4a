/-!
# What work does

Work changes a state and may fail, and what it changed until then stays changed. `returns` is what it
comes to and `leaves` is the state it leaves behind; `Reaches` speaks of both, and follows work step by
step. What only succeeds or fails is an attempt.
-/

namespace InkServer

/-! ## Attempts in a row -/

theorem bind_eq_ok_iff {ε α β : Type} {attempt : Except ε α} {next : α → Except ε β} {result : β} :
    attempt >>= next = .ok result ↔ ∃ a, attempt = .ok a ∧ next a = .ok result := by
  cases attempt with
  | error e => exact iff_of_false (fun h => by cases h) fun ⟨_, h, _⟩ => by cases h
  | ok a => exact ⟨fun h => ⟨a, rfl, h⟩, fun ⟨_, ha, h⟩ => Except.ok.inj ha ▸ h⟩

theorem mapError_eq_ok_iff {ε ε' α : Type} {attempt : Except ε α} {f : ε → ε'} {result : α} :
    attempt.mapError f = .ok result ↔ attempt = .ok result := by
  cases attempt with
  | error e => exact iff_of_false (fun h => by cases h) fun h => by cases h
  | ok a => exact ⟨fun h => Except.ok.inj h ▸ rfl, fun h => Except.ok.inj h ▸ rfl⟩

theorem bind_eq_error_iff {ε α β : Type} {attempt : Except ε α} {next : α → Except ε β} {e : ε} :
    attempt >>= next = .error e ↔ attempt = .error e ∨ ∃ a, attempt = .ok a ∧ next a = .error e := by
  cases attempt with
  | error e' => simp [bind, Except.bind]
  | ok a => simp [bind, Except.bind]

theorem mapError_ne {ε ε' α : Type} {attempt : Except ε α} {f : ε → ε'} {e : ε'} (h : ∀ e', f e' ≠ e) :
    attempt.mapError f ≠ .error e := by
  cases attempt with
  | error e' => exact fun he => h e' (Except.error.inj he)
  | ok a => exact fun he => nomatch he

theorem toOption_eq_some_iff {ε α : Type} {attempt : Except ε α} {a : α} :
    attempt.toOption = some a ↔ attempt = .ok a := by
  cases attempt <;> simp [Except.toOption]

end InkServer

namespace InkServer.Work

variable {ε σ α β : Type}

/-- What work comes to. -/
def returns (w : ExceptT ε (StateM σ) α) (s : σ) : Except ε α := (w.run s).1

/-- What work makes of the state. -/
def leaves (w : ExceptT ε (StateM σ) α) (s : σ) : σ := (w.run s).2

/-- What work comes to: `ok` holds if it succeeds, `error` if it fails. -/
def Reaches (w : ExceptT ε (StateM σ) α) (s : σ) (ok : α → σ → Prop) (error : ε → σ → Prop) : Prop :=
  match returns w s with
  | .ok a => ok a (leaves w s)
  | .error e => error e (leaves w s)

instance {w : ExceptT ε (StateM σ) α} {s : σ} {ok : α → σ → Prop} {error : ε → σ → Prop}
    [∀ a s, Decidable (ok a s)] [∀ e s, Decidable (error e s)] : Decidable (Reaches w s ok error) :=
  match h : returns w s with
  | .ok a => decidable_of_iff (ok a (leaves w s)) (by unfold Reaches; rw [h])
  | .error e => decidable_of_iff (error e (leaves w s)) (by unfold Reaches; rw [h])

theorem leaves_bind (w : ExceptT ε (StateM σ) α) (f : α → ExceptT ε (StateM σ) β) (s : σ) :
    leaves (w >>= f) s =
      match returns w s with
      | .ok a => leaves (f a) (leaves w s)
      | .error _ => leaves w s := by
  show (ExceptT.run (ExceptT.bind w f) s).2 = _
  simp only [ExceptT.bind, ExceptT.run, ExceptT.mk, bind, StateT.bind, returns, leaves]
  rcases w s with ⟨r, s'⟩
  cases r <;> rfl

theorem returns_bind (w : ExceptT ε (StateM σ) α) (f : α → ExceptT ε (StateM σ) β) (s : σ) :
    returns (w >>= f) s =
      match returns w s with
      | .ok a => returns (f a) (leaves w s)
      | .error e => .error e := by
  show (ExceptT.run (ExceptT.bind w f) s).1 = _
  simp only [ExceptT.bind, ExceptT.run, ExceptT.mk, bind, StateT.bind, returns, leaves]
  rcases w s with ⟨r, s'⟩
  cases r <;> rfl

variable {s : σ} {ok : α → σ → Prop} {error : ε → σ → Prop}

@[simp] theorem reaches_pure (a : α) : Reaches (pure a) s ok error ↔ ok a s := Iff.rfl

@[simp] theorem reaches_throw (e : ε) : Reaches (throw e) s ok error ↔ error e s := Iff.rfl

theorem reaches_bind (w : ExceptT ε (StateM σ) β) (f : β → ExceptT ε (StateM σ) α) :
    Reaches (w >>= f) s ok error ↔ Reaches w s (fun b s => Reaches (f b) s ok error) error := by
  unfold Reaches
  rw [returns_bind, leaves_bind]
  cases returns w s <;> rfl

theorem reaches_get (f : σ → ExceptT ε (StateM σ) α) :
    Reaches (get >>= f) s ok error ↔ Reaches (f s) s ok error := Iff.rfl

theorem Reaches.mono {w : ExceptT ε (StateM σ) α} {ok' : α → σ → Prop} {error' : ε → σ → Prop}
    (h : Reaches w s ok error) (ho : ∀ a s, ok a s → ok' a s) (he : ∀ e s, error e s → error' e s) :
    Reaches w s ok' error' := by
  unfold Reaches at h ⊢
  cases hr : returns w s with
  | ok a => rw [hr] at h; exact ho _ _ h
  | error e => rw [hr] at h; exact he _ _ h

/-- What is shown of where work comes to in two parts. -/
theorem Reaches.and {w : ExceptT ε (StateM σ) α} {ok' : α → σ → Prop} {error' : ε → σ → Prop}
    (h : Reaches w s ok error) (h' : Reaches w s ok' error') :
    Reaches w s (fun a s => ok a s ∧ ok' a s) fun e s => error e s ∧ error' e s := by
  unfold Reaches at h h' ⊢
  cases hr : returns w s with
  | ok a =>
      rw [hr] at h h'
      exact ⟨h, h'⟩
  | error e =>
      rw [hr] at h h'
      exact ⟨h, h'⟩

/-- Work comes to what it returns and leaves behind. -/
theorem reaches_self (w : ExceptT ε (StateM σ) α) (s : σ) :
    Reaches w s (fun a s' => returns w s = .ok a ∧ s' = leaves w s)
      fun e s' => returns w s = .error e ∧ s' = leaves w s := by
  unfold Reaches
  cases returns w s <;> exact ⟨rfl, rfl⟩

theorem Reaches.of_ok {w : ExceptT ε (StateM σ) α} (h : Reaches w s ok error) {a : α} (ha : returns w s = .ok a) :
    ok a (leaves w s) := by
  unfold Reaches at h
  rwa [ha] at h

theorem Reaches.of_error {w : ExceptT ε (StateM σ) α} (h : Reaches w s ok error) {e : ε}
    (he : returns w s = .error e) : error e (leaves w s) := by
  unfold Reaches at h
  rwa [he] at h

/-- Where both ways agree it does not matter which one work takes. -/
theorem reaches_leaves {p : σ → Prop} {w : ExceptT ε (StateM σ) α} :
    Reaches w s (fun _ => p) (fun _ => p) ↔ p (leaves w s) := by
  unfold Reaches
  cases returns w s <;> rfl

/-- What the work on each element keeps is kept by the work on all of them. -/
theorem reaches_mapM {xs : List β} {f : β → ExceptT ε (StateM σ) α} {p : σ → Prop} {q : ε → σ → Prop}
    (hs : p s) (hf : ∀ x ∈ xs, ∀ s, p s → Reaches (f x) s (fun _ => p) q) :
    Reaches (xs.mapM f) s (fun _ => p) q := by
  induction xs generalizing s with
  | nil =>
      rw [List.mapM_nil, reaches_pure]
      exact hs
  | cons x rest ih =>
      rw [List.mapM_cons, reaches_bind]
      refine (hf x List.mem_cons_self s hs).mono (fun _ s hs => ?_) fun _ _ h => h
      rw [reaches_bind]
      exact (ih hs fun y hy => hf y (List.mem_cons_of_mem _ hy)).mono (fun _ _ h => h) fun _ _ h => h

/-- Work that cannot fail, step by step. -/
theorem run_bind (x : StateM σ α) (f : α → StateM σ β) (s : σ) :
    (x >>= f).run s = (f (x.run s).1).run (x.run s).2 := rfl

/-- Work that leaves the state as it is. -/
def Looks (w : ExceptT ε (StateM σ) α) : Prop := ∀ s, leaves w s = s

theorem looks_pure (a : α) : Looks (pure a : ExceptT ε (StateM σ) α) := fun _ => rfl

theorem looks_throw (e : ε) : Looks (throw e : ExceptT ε (StateM σ) α) := fun _ => rfl

theorem looks_get (f : σ → ExceptT ε (StateM σ) α) (hf : ∀ s, Looks (f s)) : Looks (get >>= f) :=
  fun s => hf s s

theorem Looks.bind {w : ExceptT ε (StateM σ) β} {f : β → ExceptT ε (StateM σ) α} (hw : Looks w)
    (hf : ∀ b, Looks (f b)) : Looks (w >>= f) := by
  intro s
  rw [leaves_bind, hw s]
  cases returns w s with
  | ok b => exact hf b s
  | error e => rfl

theorem Looks.reaches {w : ExceptT ε (StateM σ) α} (h : Looks w) (ho : ∀ a, returns w s = .ok a → ok a s)
    (he : ∀ e, returns w s = .error e → error e s) : Reaches w s ok error := by
  refine (reaches_self w s).mono (fun a s' ⟨ha, hs⟩ => ?_) fun e s' ⟨hr, hs⟩ => ?_
  · rw [hs, h s]
    exact ho a ha
  · rw [hs, h s]
    exact he e hr

theorem Looks.mapM {xs : List β} {f : β → ExceptT ε (StateM σ) α} (hf : ∀ x, Looks (f x)) :
    Looks (xs.mapM f) := by
  induction xs with
  | nil => exact looks_pure _
  | cons x rest ih =>
      rw [List.mapM_cons]
      exact (hf x).bind fun _ => ih.bind fun _ => looks_pure _

/-- What work that only looks finds for each element it finds for all of them. -/
theorem Looks.forall_mapM {xs : List β} {f : β → ExceptT ε (StateM σ) α} {q : α → Prop} (hf : ∀ x, Looks (f x))
    (hq : ∀ x ∈ xs, ∀ a, returns (f x) s = .ok a → q a) {as : List α} (h : returns (xs.mapM f) s = .ok as) :
    ∀ a ∈ as, q a := by
  induction xs generalizing as with
  | nil =>
      cases h
      exact fun _ ha => absurd ha List.not_mem_nil
  | cons x rest ih =>
      rw [List.mapM_cons, returns_bind] at h
      cases hx : returns (f x) s with
      | error e =>
          rw [hx] at h
          cases h
      | ok b =>
          rw [hx] at h
          dsimp only at h
          rw [returns_bind, hf x s] at h
          cases hrest : returns (rest.mapM f) s with
          | error e =>
              rw [hrest] at h
              cases h
          | ok bs =>
              rw [hrest] at h
              cases h
              intro a ha
              rcases List.mem_cons.mp ha with rfl | ha
              · exact hq x List.mem_cons_self _ hx
              · exact ih (fun y hy => hq y (List.mem_cons_of_mem _ hy)) hrest a ha

/-- What work that only looks lists for all elements together is what it lists for each of them. -/
theorem Looks.mem_flatten_mapM {xs : List β} {f : β → ExceptT ε (StateM σ) (List α)} {lists : β → α → Prop}
    (hf : ∀ x, Looks (f x)) (hl : ∀ x ∈ xs, ∀ as, returns (f x) s = .ok as → ∀ a, a ∈ as ↔ lists x a)
    {ass : List (List α)} (h : returns (xs.mapM f) s = .ok ass) (a : α) : a ∈ ass.flatten ↔ ∃ x ∈ xs, lists x a := by
  induction xs generalizing ass with
  | nil =>
      cases h
      exact iff_of_false List.not_mem_nil fun ⟨_, hx, _⟩ => absurd hx List.not_mem_nil
  | cons x rest ih =>
      rw [List.mapM_cons, returns_bind] at h
      cases hx : returns (f x) s with
      | error e =>
          rw [hx] at h
          cases h
      | ok as =>
          rw [hx] at h
          dsimp only at h
          rw [returns_bind, hf x s] at h
          cases hrest : returns (rest.mapM f) s with
          | error e =>
              rw [hrest] at h
              cases h
          | ok others =>
              rw [hrest] at h
              cases h
              rw [List.flatten_cons, List.mem_append, hl x List.mem_cons_self as hx a,
                ih (fun y hy => hl y (List.mem_cons_of_mem _ hy)) hrest]
              simp only [List.mem_cons, exists_eq_or_imp]

end InkServer.Work
