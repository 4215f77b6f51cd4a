import InkServer.Proofs.Settings.Moves

/-!
# Turns come to an end

Every turn of a server that looks settings up lets a look-up begin, ends a request, or leaves fewer wake-ups than
there were. So however long a run has been, nobody is kept waiting for a turn.
-/

namespace InkServer

open Function (update)

namespace SettingsDesk

/-- A look-up that has not begun. -/
def isCall : Option (Suspended Operation Waiting) → Bool
  | some (.created (.resolveSettings _)) => true
  | _ => false

/-- A request without an outcome. -/
def isUnderWay (F? : Option SettingsFetch) : Bool := F?.any fun F => F.outcome.isNone

/-- The number of tasks below a bound of which something holds. -/
def countBelow (n : Nat) (p : TaskId → Bool) : Nat := ((Finset.range n).filter fun t => p t = true).card

/-- The number of look-ups that have not begun. -/
def callsLeft (d : SettingsDesk) : Nat := countBelow d.next fun t => isCall (d.task? t)

/-- The number of requests without an outcome. -/
def requestsLeft (d : SettingsDesk) : Nat := countBelow d.next fun t => isUnderWay (d.fetch? t)

/-- The number of turns that the wake-ups take. -/
def turnsLeft (d : SettingsDesk) : Nat := (d.ready.map fun w => w.turns + 1).sum

theorem countBelow_lt {n n' : Nat} {p p' : TaskId → Bool} {t : TaskId} (hlt : t < n) (hp : p t = true)
    (hp' : p' t = false) (hother : ∀ t, p' t = true → t < n ∧ p t = true) : countBelow n' p' < countBelow n p := by
  refine Finset.card_lt_card ⟨fun t' ht' => ?_, fun hsub => ?_⟩
  · obtain ⟨-, ht'⟩ := Finset.mem_filter.mp ht'
    exact Finset.mem_filter.mpr ⟨Finset.mem_range.mpr (hother t' ht').1, (hother t' ht').2⟩
  · have ht := hsub (Finset.mem_filter.mpr ⟨Finset.mem_range.mpr hlt, hp⟩)
    rw [(Finset.mem_filter.mp ht).2] at hp'
    cases hp'

variable {source : SettingsSource} {d d' : SettingsDesk} {w : Wake} {rest : List Wake}

theorem turnsLeft_lt_of_cons (hr : d.ready = w :: rest) (hr' : d'.ready = rest) : d'.turnsLeft < d.turnsLeft := by
  unfold turnsLeft
  rw [hr, hr', List.map_cons, List.sum_cons]
  omega

/-- What a turn uses up. -/
inductive UsesUp (d d' : SettingsDesk) : Prop where
  | call (h : d'.callsLeft < d.callsLeft)
  | request (hc : d'.callsLeft = d.callsLeft) (h : d'.requestsLeft < d.requestsLeft)
  | turn (hc : d'.callsLeft = d.callsLeft) (hr : d'.requestsLeft = d.requestsLeft) (h : d'.turnsLeft < d.turnsLeft)

/-- A look-up begins, or is not to begin. -/
theorem UsesUp.of_call (h : d.Orderly source) {t : TaskId} {uri : String}
    {x : Option (Suspended Operation Waiting)} (ht : d.task? t = some (.created (.resolveSettings uri)))
    (hx : d'.task? t = x) (hcall : isCall x = false)
    (hother : ∀ t', t' ≠ t → isCall (d'.task? t') = true → d'.task? t' = d.task? t') : UsesUp d d' := by
  refine .call (countBelow_lt (h.lt_of_task? (by rw [ht]; exact Option.some_ne_none _)) (by rw [ht]; rfl) (hx ▸ hcall)
    fun t' ht' => ?_)
  have hne : t' ≠ t := fun he => by
    rw [he, hx, hcall] at ht'
    cases ht'
  rw [hother t' hne ht'] at ht'
  refine ⟨h.lt_of_task? fun hn => ?_, ht'⟩
  rw [hn] at ht'
  cases ht'

/-- A turn of a task that is no look-up about to begin, while no request ends. -/
theorem UsesUp.of_turn (hr : d.ready = w :: rest) (hr' : d'.ready = rest) (hnext : d'.next = d.next)
    (hcall : ∀ t, isCall (d'.task? t) = isCall (d.task? t)) (hfetch : ∀ t, isUnderWay (d'.fetch? t) = isUnderWay (d.fetch? t)) :
    UsesUp d d' := by
  refine .turn ?_ ?_ (turnsLeft_lt_of_cons hr hr')
  · unfold callsLeft
    rw [hnext, funext hcall]
  · unfold requestsLeft
    rw [hnext, funext hfetch]

theorem isCall_update {task? : TaskId → Option (Suspended Operation Waiting)} {t : TaskId}
    {x : Option (Suspended Operation Waiting)} (ht : isCall (task? t) = false) (hx : isCall x = false) (t' : TaskId) :
    isCall (update task? t x t') = isCall (task? t') := by
  rw [Function.update_apply]
  split
  · rename_i he
    rw [he, ht, hx]
  · rfl

theorem isUnderWay_update {fetch? : TaskId → Option SettingsFetch} {f : TaskId} {F F' : SettingsFetch}
    (hF : fetch? f = some F) (ho : F'.outcome = F.outcome) (f' : TaskId) :
    isUnderWay (update fetch? f (some F') f') = isUnderWay (fetch? f') := by
  rw [Function.update_apply]
  split
  · rename_i he
    rw [he, hF]
    show F'.outcome.isNone = F.outcome.isNone
    rw [ho]
  · rfl

/-- Every turn uses up something. -/
theorem Step.usesUp (hs : Step source d .turn d') (h : d.Orderly source) (hready : d.ready ≠ []) : UsesUp d d' := by
  have hothers : ∀ {t : TaskId} {x : Option (Suspended Operation Waiting)} (t' : TaskId), t' ≠ t →
      isCall (update d.task? t x t') = true → update d.task? t x t' = d.task? t' := fun t' hne _ =>
    Function.update_of_ne hne _ _
  cases hs with
  | rests _ ht => exact absurd (ht rfl) hready
  | @postpones w rest n hr hn =>
      refine .turn rfl rfl ?_
      unfold turnsLeft
      rw [hr, List.map_append, List.sum_append, List.map_cons, List.map_cons, List.sum_cons, hn]
      simp only [List.map_nil, List.sum_cons, List.sum_nil]
      omega
  | idles hr ht => exact .of_turn hr rfl rfl (fun _ => rfl) fun _ => rfl
  | refuses hr ht hs => exact .of_call h ht (Function.update_self ..) rfl hothers
  | joins hr ht hc hf ho => exact .of_call h ht (Function.update_self ..) rfl hothers
  | @asksAnew w rest uri hr ht hc =>
      refine .of_call h ht (Function.update_self ..) rfl fun t' hne hcall => ?_
      have hsame := Function.update_of_ne hne (some (.waiting (.lookingUp ⟨uri, d.next⟩)))
        (update d.task? d.next (some (.created (.fetchSettings uri))))
      have hcall := (congrArg isCall hsame).symm.trans hcall
      refine hsame.trans ?_
      refine Function.update_of_ne (fun he => ?_) _ _
      rw [he, Function.update_self] at hcall
      cases hcall
  | @concludes w rest uri f F outcome hr ht hf ho =>
      rcases ht with ⟨ht, -⟩ | ht
      · exact .of_call h ht (Function.update_self ..) rfl hothers
      · exact .of_turn hr rfl rfl (isCall_update (by rw [ht]; rfl) rfl) fun _ => rfl
  | raises hr ht hs hf =>
      exact .of_turn hr rfl rfl (isCall_update (by rw [ht]; rfl) rfl) (isUnderWay_update hf rfl)
  | holds hr ht => exact .of_turn hr rfl rfl (isCall_update (by rw [ht]; rfl) rfl) fun _ => rfl
  | sends hr ht => exact .of_turn hr rfl rfl (isCall_update (by rw [ht]; rfl) rfl) fun _ => rfl
  | @finishes w rest x F outcome requests hr ht hf hq hs hv =>
      have hcall : isCall (d.task? w.task) = false := by
        have hstands := h.tasks _ _ ht
        cases hx : isCall (d.task? w.task) with
        | false => rfl
        | true =>
            unfold isCall at hx
            split at hx
            · rename_i uri hx'
              cases (h.tasks _ _ hx').1.symm.trans hf
            · cases hx
      refine .request ?_ ?_
      · exact congrArg (countBelow d.next) (funext (isCall_update hcall rfl))
      · refine countBelow_lt (t := w.task) (h.lt_of_fetch? (by rw [hf]; exact Option.some_ne_none _)) ?_ ?_ fun t ht' => ?_
        · rw [hf]
          show F.outcome.isNone = true
          rw [(h.tasks _ _ ht).outcome_eq_none hf]
          rfl
        · show isUnderWay (update d.fetch? w.task _ w.task) = false
          rw [Function.update_self]
          rfl
        · change isUnderWay (update d.fetch? w.task _ t) = true at ht'
          rw [Function.update_apply] at ht'
          split at ht'
          · cases ht'
          · refine ⟨h.lt_of_fetch? fun hn => ?_, ht'⟩
            rw [hn] at ht'
            cases ht'

end SettingsDesk

namespace Server

open SettingsDesk (of)

/-- A server that is only given turns comes to rest. -/
theorem Serves.exists_rest {source : SettingsSource} {s : Server} (h : Serves source s) :
    ∃ turns, (s.after serverMachine External.act (List.replicate turns .turn)).loop.ready = [] := by
  by_cases hr : s.loop.ready = []
  · exact ⟨0, hr⟩
  · have husesUp := h.goes_turn.step.usesUp h.orderly hr
    obtain ⟨turns, hrest⟩ := (h.goes_turn.serves h).exists_rest
    exact ⟨turns + 1, hrest⟩
termination_by ((of s).callsLeft, (of s).requestsLeft, (of s).turnsLeft)
decreasing_by
  rcases husesUp with hc | ⟨hc, hr⟩ | ⟨hc, hr, ht⟩
  · exact Prod.Lex.left _ _ hc
  · exact hc ▸ Prod.Lex.right _ (Prod.Lex.left _ _ hr)
  · exact hc ▸ Prod.Lex.right _ (hr ▸ Prod.Lex.right _ ht)

end Server

end InkServer
