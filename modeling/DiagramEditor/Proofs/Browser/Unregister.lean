import DiagramEditor.Proofs.Browser.Calls

/-! Callbacks that are taken away: from then on a callback is called once by each delivery in
progress that has yet to call it, and by nothing else. -/
namespace DiagramEditor.Browser

open Standing (Allows)

/-- How a callback is taken away that is there under the handle. -/
def removal (number : Nat) (l : Listener) : List Moment :=
  [.begins (.method (.off number)), .borrows .listeners,
    .removes (number % Tab.handleBound) l, .returns .listeners,
    .answers (.off number) (.ok (.bool true))]

namespace Standing

structure Gone (n : Nat) (s : Standing) : Prop where
  registered : n < s.callbacks.length
  absent : ∀ e ∈ s.listeners, e.2.callback ≠ n

variable {s : Standing} {m : Moment} {n : Nat}

theorem Gone.not_audience (h : s.Gone n) (kind : EventKind) :
    n ∉ Tab.audience s.listeners kind := by
  intro hmem
  obtain ⟨e, he, hen⟩ := List.mem_map.mp hmem
  exact h.absent e (List.mem_filter.mp he).1 hen

theorem Allows.gone (h : s.Allows m) (hs : s.Gone n) : (s.after m).Gone n := by
  cases h with
  | register hf hh hl =>
    subst hl
    refine ⟨?_, fun e he => ?_⟩
    · rw [after, List.length_append]
      exact Nat.lt_add_right _ hs.registered
    · rcases Tab.mem_insertListener he with rfl | he
      · exact Nat.ne_of_gt hs.registered
      · exact hs.absent e he
  | remove => exact ⟨hs.registered, fun e he => hs.absent e (Table.mem_erase.mp he).1⟩
  | _ => exact ⟨hs.registered, hs.absent⟩

theorem Allows.not_awaits {j : Nat} (h : s.Allows m)
    (hs : s.Gone n ∧ ∀ k, j ≤ k → ¬ s.Awaits n k) :
    (s.after m).Gone n ∧ ∀ k, j ≤ k → ¬ (s.after m).Awaits n k := by
  refine ⟨h.gone hs.1, ?_⟩
  rintro k hk ⟨e, ws, hmem, hn⟩
  rcases origin hmem with ⟨ws', hmem, hsuffix⟩ | ⟨-, -, rfl⟩
  · exact hs.2 k hk ⟨e, ws', hmem, hsuffix.subset hn⟩
  · exact hs.1.not_audience _ hn

end Standing

section Account
variable {past rest : List Moment} {number : Nat} {l : Listener}

theorem Kept.removal (h : Kept (past ++ removal number l)) :
    (standing past).listeners.get? (number % Tab.handleBound) = some l ∧
      (standing (past ++ removal number l)).Gone l.callback := by
  obtain ⟨hpast, hfollows⟩ := Kept.append_iff.mp h
  have hd := hpast.distinct
  obtain ⟨-, -, hremoves, -⟩ := hfollows
  have hl : (standing past).listeners.get? (number % Tab.handleBound) = some l := by
    cases hremoves with
    | remove hf hh hn hl => exact hl
  refine ⟨hl, ?_, ?_⟩
  · simpa [standing_append, Browser.removal, Standing.after] using
      hd.registered _ (Table.mem_of_get? hl)
  · -- no callback is registered under two handles
    intro e he hel
    have he : e ∈ (standing past).listeners.erase (number % Tab.handleBound) := by
      simpa [standing_append, Browser.removal, Standing.after] using he
    obtain ⟨he, hne⟩ := Table.mem_erase.mp he
    have hsame : e = (_, l) := List.inj_on_of_nodup_map hd.listeners he (Table.mem_of_get? hl) hel
    exact hne (congrArg Prod.fst hsame)

theorem awaits_removal {n k : Nat} :
    (standing (past ++ removal number l)).Awaits n k ↔ (standing past).Awaits n k := by
  simp [standing_append, Browser.removal, Standing.after, Standing.Awaits, Standing.mem_resumed]

theorem Kept.awaits_of_gone {n k : Nat} (h : Kept (past ++ rest)) (hgone : (standing past).Gone n)
    (ha : (standing (past ++ rest)).Awaits n k) : (standing past).Awaits n k := by
  have hlater := h.keeps (P := fun s => s.Gone n ∧ ∀ k, (standing past).delivered ≤ k →
    ¬ s.Awaits n k) Allows.not_awaits ⟨hgone, fun k hk ha => Nat.not_le_of_lt ha.delivered hk⟩
  exact awaits_past ha (Nat.lt_of_not_le fun hk => hlater.2 k hk ha)

theorem le_of_called {t n : Nat} {v : Value} (ht : past.length ≤ t)
    (h : (past ++ removal number l ++ rest)[t]? = some (.begins (.callback n v))) :
    (past ++ removal number l).length ≤ t := by
  refine Nat.le_of_not_lt fun hlt => ?_
  rw [List.getElem?_append_left hlt, List.getElem?_append_right ht] at h
  simpa [removal] using List.mem_of_getElem? h

end Account

theorem Site.run_off (levels : Nat) {s : Site} {number : Nat}
    (hr : (run (levels + 1) (.op (.off number)) s).1 = .ok (.bool true)) :
    ∃ l, (run (levels + 1) (.op (.off number)) s).2 = s.onOutside fun t =>
      { t.tell (removal number l) with
        listeners := t.listeners.erase (number % Tab.handleBound) } := by
  simp only [run, perform, act, Tab.unregister, Except.ok.injEq, Value.bool.injEq] at hr ⊢
  obtain ⟨l, hl⟩ := Table.has_iff.mp hr
  refine ⟨l, ?_⟩
  simp only [Site.tell, Desk.onOutside, Tab.tell] at hr hl ⊢
  simp [hr, hl, removal]

/-- A callback that a script has taken away by its handle is called exactly once by each delivery
that was in progress then and had yet to call it, and by no other. -/
theorem unregistered_called_by_waiting {settings : String} {dom : Dom} {console : Log.Console}
    {levels : Nat} {script : Program} {ms : List Moment}
    (h : Site.accountOf settings (Tab.new dom console) levels script = .ok ms) :
    (∀ past number l rest, ms = past ++ removal number l ++ rest →
      (standing past).listeners.get? (number % Tab.handleBound) = some l ∧
      (∀ k, (standing past).Awaits l.callback k →
        ∃! t, past.length ≤ t ∧ callAt? ms t = some (l.callback, k)) ∧
      ∀ t v, past.length ≤ t → ms[t]? = some (.begins (.callback l.callback v)) →
        ∃ k, callAt? ms t = some (l.callback, k) ∧ (standing past).Awaits l.callback k) ∧
    ∀ (s : Site) number, (Site.run (levels + 1) (.op (.off number)) s).1 = .ok (.bool true) →
      ∃ l, (Site.run (levels + 1) (.op (.off number)) s).2 = s.onOutside fun t =>
        { t.tell (removal number l) with
          listeners := t.listeners.erase (number % Tab.handleBound) } := by
  refine ⟨?_, fun s number hr => Site.run_off levels hr⟩
  rintro past number l rest rfl
  obtain ⟨hkept, hend, -⟩ := Site.accountOf_kept h
  obtain ⟨hl, hgone⟩ := hkept.past.removal
  refine ⟨hl, fun k ha => ?_, fun t v ht hcall => ?_⟩
  · rw [List.append_assoc] at hkept hend ⊢
    obtain ⟨t, ht, hcall⟩ := hkept.call_comes hend ha
    exact ⟨t, ⟨ht, hcall⟩, fun t' ht' => hkept.callAt?_unique hend ht'.2 hcall⟩
  · obtain ⟨k, hk, hhands⟩ := hkept.callAt?_of_begins hcall
    obtain ⟨mid, hmid⟩ : past ++ removal number l <+:
        (past ++ removal number l ++ rest).take t :=
      List.prefix_take_iff.mpr ⟨List.prefix_append _ rest, le_of_called ht hcall⟩
    have hpast : Kept (past ++ removal number l ++ mid) := by
      rw [← List.take_append_drop t (past ++ removal number l ++ rest)] at hkept
      exact hmid ▸ hkept.past
    refine ⟨k, hk, awaits_removal.mp (hpast.awaits_of_gone hgone ?_)⟩
    rw [hmid]
    exact hhands.awaits

def takesAway : Program :=
  .calls (setup ++ [.on .placement fun _ => .calls [.off 1],
    .on .placement fun _ => .returns .undefined, .dragTemplate "Step" ⟨0, 0⟩, .dragStop ⟨10, 20⟩])

theorem takesAway_splits :
    ∃ past rest, Site.accountOf "" (Tab.new sheet .empty) 9 takesAway =
        .ok (past ++ removal 1 ⟨.placement, 1⟩ ++ rest) ∧
      (standing past).Awaits 1 0 ∧ ∃ v, .begins (.callback 1 v) ∈ rest := by
  obtain ⟨ms, h, hremoval, hwaits, v, hcall⟩ : ∃ ms,
      Site.accountOf "" (Tab.new sheet .empty) 9 takesAway = .ok ms ∧
        (ms.drop 49).take 5 = removal 1 ⟨.placement, 1⟩ ∧ (standing (ms.take 49)).Awaits 1 0 ∧
        ∃ v, (ms.drop 54)[1]? = some (.begins (.callback 1 v)) :=
    ⟨_, rfl, rfl, ⟨_, [1], List.mem_cons_of_mem _ List.mem_cons_self, List.mem_cons_self⟩, _, rfl⟩
  refine ⟨ms.take 49, ms.drop 54, ?_, hwaits, v, List.mem_of_getElem? hcall⟩
  rw [h, ← hremoval, List.append_assoc, ← List.drop_drop (i := 5) (j := 49),
    List.take_append_drop, List.take_append_drop]

theorem unregistered_called_once_more :
    ∃ past rest, Site.accountOf "" (Tab.new sheet .empty) 9 takesAway =
        .ok (past ++ removal 1 ⟨.placement, 1⟩ ++ rest) ∧
      (standing past).Awaits 1 0 ∧
      ∃! t, past.length ≤ t ∧
        callAt? (past ++ removal 1 ⟨.placement, 1⟩ ++ rest) t = some (1, 0) := by
  obtain ⟨past, rest, h, hwaits, -⟩ := takesAway_splits
  obtain ⟨-, hcalls, -⟩ := (unregistered_called_by_waiting h).1 past 1 ⟨.placement, 1⟩ rest rfl
  exact ⟨past, rest, h, hwaits, hcalls 0 hwaits⟩

/-- The second callback is called although it has been taken away. -/
theorem called_after_removal :
    ¬ ∀ past rest, Site.accountOf "" (Tab.new sheet .empty) 9 takesAway =
        .ok (past ++ removal 1 ⟨.placement, 1⟩ ++ rest) →
      ∀ v, .begins (.callback 1 v) ∉ rest := by
  intro hnever
  obtain ⟨past, rest, h, -, v, hcall⟩ := takesAway_splits
  exact hnever past rest h v hcall

end DiagramEditor.Browser
