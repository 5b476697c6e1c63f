import DiagramEditor.Proofs.Browser.Tracking

/-! The order of events: what the board publishes is put into the queue, and deliveries begin in
that order. A callback gets a later event first exactly when it is called for it while the delivery
of an earlier one waits. -/
namespace DiagramEditor.Browser

open Standing (Allows)

def Moment.published? : Moment → Option Event
  | .works b op => b.event? op
  | _ => none

def Moment.raised? : Moment → Option Event
  | .raises e => some e
  | _ => none

def Moment.delivered? : Moment → Option Event
  | .begins (.delivery e) => some e
  | _ => none

def published (ms : List Moment) : List Event := ms.filterMap Moment.published?

def raised (ms : List Moment) : List Event := ms.filterMap Moment.raised?

def delivered (ms : List Moment) : List Event := ms.filterMap Moment.delivered?

theorem published_concat (ms : List Moment) (m : Moment) :
    published (ms ++ [m]) = published ms ++ m.published?.toList :=
  List.filterMap_append

theorem raised_concat (ms : List Moment) (m : Moment) :
    raised (ms ++ [m]) = raised ms ++ m.raised?.toList :=
  List.filterMap_append

theorem delivered_concat (ms : List Moment) (m : Moment) :
    delivered (ms ++ [m]) = delivered ms ++ m.delivered?.toList :=
  List.filterMap_append

theorem Kept.published_eq {ms : List Moment} (h : Kept ms) :
    published ms = raised ms ++ (standing ms).due := by
  induction h with
  | nil => rfl
  | @snoc ms m h hm ih =>
    rw [published_concat, raised_concat, standing_concat, ih]
    cases hm with
    | work hf hl hh hd => simp [Moment.published?, Moment.raised?, Standing.after, hd]
    | raise hf hl hh hd =>
      obtain ⟨rest, hd⟩ := List.head?_eq_some_iff.mp hd
      simp [Moment.published?, Moment.raised?, Standing.after, hd]
    | _ => simp [Moment.published?, Moment.raised?, Standing.after]

theorem Kept.raised_eq {ms : List Moment} (h : Kept ms) :
    raised ms = delivered ms ++ (standing ms).queue := by
  induction h with
  | nil => rfl
  | @snoc ms m h hm ih =>
    rw [raised_concat, delivered_concat, standing_concat, ih]
    cases hm with
    | deliver hf hl hh hq =>
      obtain ⟨rest, hq⟩ := List.head?_eq_some_iff.mp hq
      simp [Moment.raised?, Moment.delivered?, Standing.after, hq]
    | _ => simp [Moment.raised?, Moment.delivered?, Standing.after]

theorem delivered_length (ms : List Moment) : (standing ms).delivered = (delivered ms).length := by
  induction ms using List.reverseRecOn with
  | nil => rfl
  | append_singleton ms m ih =>
    rw [standing_concat, delivered_concat, List.length_append, ← ih]
    cases m with
    | begins a => cases a <;> simp [Standing.after, Moment.delivered?]
    | _ => simp [Standing.after, Moment.delivered?]

namespace Standing

/-- The next callback of the innermost delivery, which delivers event number `k`. -/
def Hands (s : Standing) (n k : Nat) : Prop := ∃ e ws up, s.frames = .delivery k e (n :: ws) :: up

/-- Event number `k` is being delivered, and a callback has yet to get it. -/
def Awaits (s : Standing) (n k : Nat) : Prop := ∃ e ws, .delivery k e ws ∈ s.frames ∧ n ∈ ws

variable {s : Standing} {m : Moment} {n k : Nat}

theorem Hands.awaits (h : s.Hands n k) : s.Awaits n k := by
  obtain ⟨e, ws, up, hf⟩ := h
  exact ⟨e, n :: ws, hf ▸ List.mem_cons_self, List.mem_cons_self⟩

theorem Hands.inj {k' : Nat} (h : s.Hands n k) (h' : s.Hands n k') : k = k' := by
  obtain ⟨e, ws, up, hf⟩ := h
  obtain ⟨e', ws', up', hf'⟩ := h'
  exact (Frame.delivery.inj (List.cons.inj (hf.symm.trans hf')).1).1

theorem mem_resumed {e : Event} {ws : List Nat} {a : Answer} {frames : List Frame} :
    .delivery k e ws ∈ frames.modifyHead (Frame.resume a) ↔ .delivery k e ws ∈ frames := by
  cases frames with
  | nil => rfl
  | cons f up => cases f <;> simp [Frame.resume]

theorem origin {e : Event} {ws : List Nat} (h : .delivery k e ws ∈ (s.after m).frames) :
    (∃ ws', .delivery k e ws' ∈ s.frames ∧ ws <:+ ws') ∨
      m = .begins (.delivery e) ∧ k = s.delivered ∧ ws = Tab.audience s.listeners (.of e) := by
  have hold : .delivery k e ws ∈ s.frames → ∃ ws', .delivery k e ws' ∈ s.frames ∧ ws <:+ ws' :=
    fun h => ⟨ws, h, List.suffix_rfl⟩
  cases m with
  | begins a =>
    cases a with
    | method op =>
      simp only [after, List.mem_cons] at h
      exact Or.inl (hold (h.resolve_left Frame.noConfusion))
    | library f vs =>
      simp only [after, List.mem_cons] at h
      exact Or.inl (hold (h.resolve_left Frame.noConfusion))
    | delivery e' =>
      simp only [after, List.mem_cons] at h
      rcases h with h | h
      · obtain ⟨rfl, rfl, rfl⟩ := Frame.delivery.inj h
        exact Or.inr ⟨rfl, rfl, rfl⟩
      · exact Or.inl (hold h)
    | callback n v =>
      simp only [after, List.mem_cons] at h
      replace h := h.resolve_left Frame.noConfusion
      generalize s.frames = frames at h hold ⊢
      cases frames with
      | nil => cases h
      | cons f up =>
        rcases List.mem_cons.mp h with h | h
        · cases f with
          | delivery k' e' ws' =>
            obtain ⟨rfl, rfl, rfl⟩ := Frame.delivery.inj h
            exact Or.inl ⟨ws', List.mem_cons_self, List.tail_suffix ws'⟩
          | _ => cases h
        · exact Or.inl (hold (List.mem_cons_of_mem f h))
  | answers op a => exact Or.inl (hold (List.mem_of_mem_tail (mem_resumed.mp h)))
  | overflows op => exact Or.inl (hold (mem_resumed.mp h))
  | ends a => exact Or.inl (hold (List.mem_of_mem_tail h))
  | _ => exact Or.inl (hold h)

theorem Allows.awaits (h : s.Allows m) (ha : s.Awaits n k) :
    (s.after m).Awaits n k ∨ (∃ v, m = .begins (.callback n v)) ∧ s.Hands n k := by
  obtain ⟨e, ws, hmem, hn⟩ := ha
  -- what is on top of the frames and is no such delivery may go
  have hup : ∀ {f up}, s.frames = f :: up → f ≠ .delivery k e ws → .delivery k e ws ∈ up := by
    intro f up hf hne
    exact (List.mem_cons.mp (hf ▸ hmem)).resolve_left (Ne.symm hne)
  cases h with
  | @callBack k' e' n' ws' up hf hh =>
    by_cases htop : Frame.delivery k' e' (n' :: ws') = .delivery k e ws
    · obtain ⟨rfl, rfl, rfl⟩ := Frame.delivery.inj htop
      rcases List.mem_cons.mp hn with rfl | hn
      · exact Or.inr ⟨⟨_, rfl⟩, e', ws', up, hf⟩
      · exact Or.inl ⟨e', ws', by simp [after, hf, Frame.pass], hn⟩
    · have hmem := hup hf htop
      exact Or.inl ⟨e, ws, by simp [after, hf, hmem], hn⟩
  | answer hf =>
    have hmem := hup hf Frame.noConfusion
    exact Or.inl ⟨e, ws, mem_resumed.mpr (by simpa [hf] using hmem), hn⟩
  | overflow => exact Or.inl ⟨e, ws, mem_resumed.mpr hmem, hn⟩
  | callbackEnds hf =>
    have hmem := hup hf Frame.noConfusion
    exact Or.inl ⟨e, ws, by simpa [after, hf] using hmem, hn⟩
  | libraryEnds hf =>
    have hmem := hup hf Frame.noConfusion
    exact Or.inl ⟨e, ws, by simpa [after, hf] using hmem, hn⟩
  | @deliveryEnds e' k' up hf =>
    have hne : Frame.delivery k' e' [] ≠ .delivery k e ws := by
      rintro h
      obtain ⟨-, -, rfl⟩ := Frame.delivery.inj h
      cases hn
    have hmem := hup hf hne
    exact Or.inl ⟨e, ws, by simpa [after, hf] using hmem, hn⟩
  | _ => exact Or.inl ⟨e, ws, by simp [after, hmem], hn⟩

theorem Awaits.before (h : (s.after m).Awaits n k) (hk : k < s.delivered) : s.Awaits n k := by
  obtain ⟨e, ws, hmem, hn⟩ := h
  rcases origin hmem with ⟨ws', hmem, hs⟩ | ⟨-, rfl, -⟩
  · exact ⟨e, ws', hmem, hs.subset hn⟩
  · exact absurd hk (Nat.lt_irrefl s.delivered)

end Standing

section Account
variable {past rest : List Moment} {n k : Nat}

theorem delivered_mono (past rest : List Moment) :
    (standing past).delivered ≤ (standing (past ++ rest)).delivered := by
  rw [delivered_length, delivered_length, delivered, delivered, List.filterMap_append,
    List.length_append]
  exact Nat.le_add_right _ _

theorem delivered_getElem? {ms : List Moment} {e : Event} {ws : List Nat}
    (h : .delivery k e ws ∈ (standing ms).frames) : (delivered ms)[k]? = some e := by
  induction ms using List.reverseRecOn generalizing ws with
  | nil => cases h
  | append_singleton ms m ih =>
    rw [standing_concat] at h
    rw [delivered_concat]
    rcases Standing.origin h with ⟨ws', h, -⟩ | ⟨rfl, rfl, -⟩
    · have hk := ih h
      rwa [List.getElem?_append_left (List.getElem?_eq_some_iff.mp hk).1]
    · rw [delivered_length]
      exact List.getElem?_concat_length

theorem Standing.Awaits.delivered (h : (standing past).Awaits n k) :
    k < (standing past).delivered := by
  obtain ⟨e, ws, hmem, -⟩ := h
  obtain ⟨hk, -⟩ := List.getElem?_eq_some_iff.mp (delivered_getElem? hmem)
  rwa [delivered_length]

theorem awaits_past (h : (standing (past ++ rest)).Awaits n k)
    (hk : k < (standing past).delivered) : (standing past).Awaits n k := by
  induction rest using List.reverseRecOn with
  | nil => rwa [List.append_nil] at h
  | append_singleton rest m ih =>
    rw [← List.append_assoc, standing_concat] at h
    exact ih (h.before (Nat.lt_of_lt_of_le hk (delivered_mono past rest)))

/-- A callback that is awaited at first and not in the end was called in between. -/
theorem Kept.hands (h : Kept (past ++ rest)) (ha : (standing past).Awaits n k)
    (hend : ¬ (standing (past ++ rest)).Awaits n k) :
    ∃ mid v rest', rest = mid ++ .begins (.callback n v) :: rest' ∧
      (standing (past ++ mid)).Hands n k := by
  induction rest generalizing past with
  | nil => exact absurd ha (List.append_nil past ▸ hend)
  | cons m rest ih =>
    rcases Allows.awaits h.next ha with hnext | ⟨⟨v, rfl⟩, hhands⟩
    · rw [List.append_cons] at h hend
      obtain ⟨mid, v, rest', rfl, hhands⟩ := ih h (standing_concat past m ▸ hnext) hend
      exact ⟨m :: mid, v, rest', rfl, List.append_cons past m mid ▸ hhands⟩
    · exact ⟨[], v, rest, rfl, (List.append_nil past).symm ▸ hhands⟩

end Account

/-- The callback that is called at a moment, and the number of the event that it is called for. -/
def callAt? (ms : List Moment) (t : Nat) : Option (Nat × Nat) :=
  match ms[t]?, (standing (ms.take t)).frames with
  | some (.begins (.callback n _)), .delivery k _ (n' :: _) :: _ =>
    if n' = n then some (n, k) else none
  | _, _ => none

section Order
variable {ms past rest : List Moment} {t n j k : Nat}

theorem callAt?_length {v : Value} (h : (standing past).Hands n k) :
    callAt? (past ++ .begins (.callback n v) :: rest) past.length = some (n, k) := by
  obtain ⟨e, ws, up, hf⟩ := h
  simp [callAt?, hf]

theorem callAt?_eq_some (h : callAt? ms t = some (n, k)) :
    ∃ v rest, ms = ms.take t ++ .begins (.callback n v) :: rest ∧
      (standing (ms.take t)).Hands n k ∧ (ms.take t).length = t := by
  simp only [callAt?] at h
  split at h
  · next n' v k' e n'' ws up hm hf =>
    split at h
    · next hn =>
      obtain ⟨rfl, rfl⟩ := Prod.mk.inj (Option.some.inj h)
      obtain ⟨ht, hm⟩ := List.getElem?_eq_some_iff.mp hm
      have hlen : (ms.take t).length = t := List.length_take_of_le (Nat.le_of_lt ht)
      refine ⟨v, ms.drop (t + 1), ?_, ⟨e, ws, up, hn ▸ hf⟩, hlen⟩
      rw [← hm, List.getElem_cons_drop, List.take_append_drop]
    · cases h
  · cases h

theorem Kept.called {v : Value} (h : Kept (past ++ .begins (.callback n v) :: rest)) :
    ∃ k e, (standing past).Hands n k ∧ (raised past)[k]? = some e ∧ v = .sent e.toJson := by
  cases h.next with
  | @callBack k e n ws up hf _ =>
    have hk : (delivered past)[k]? = some e := delivered_getElem? (hf ▸ List.mem_cons_self)
    refine ⟨k, e, ⟨e, ws, up, hf⟩, ?_, rfl⟩
    rwa [h.past.raised_eq, List.getElem?_append_left (List.getElem?_eq_some_iff.mp hk).1]

theorem Kept.callAt?_of_begins {v : Value} (h : Kept ms)
    (hm : ms[t]? = some (.begins (.callback n v))) :
    ∃ k, callAt? ms t = some (n, k) ∧ (standing (ms.take t)).Hands n k := by
  obtain ⟨ht, hm⟩ := List.getElem?_eq_some_iff.mp hm
  have hms : ms = ms.take t ++ .begins (.callback n v) :: ms.drop (t + 1) := by
    rw [← hm, List.getElem_cons_drop, List.take_append_drop]
  have hlen : (ms.take t).length = t := List.length_take_of_le (Nat.le_of_lt ht)
  obtain ⟨k, e, hhands, -⟩ := (hms ▸ h).called
  have hcall : callAt? (ms.take t ++ .begins (.callback n v) :: ms.drop (t + 1)) _ = some (n, k) :=
    callAt?_length hhands
  rw [← hms, hlen] at hcall
  exact ⟨k, hcall, hhands⟩

/-- Nothing is in progress in the end, so a call that is awaited comes. -/
theorem Kept.call_comes (h : Kept (past ++ rest)) (hend : (standing (past ++ rest)).frames = [])
    (ha : (standing past).Awaits n k) :
    ∃ t, past.length ≤ t ∧ callAt? (past ++ rest) t = some (n, k) := by
  have hnone : ¬ (standing (past ++ rest)).Awaits n k := by
    rintro ⟨e, ws, hmem, -⟩
    rw [hend] at hmem
    cases hmem
  obtain ⟨mid, v, rest', rfl, hhands⟩ := h.hands ha hnone
  refine ⟨(past ++ mid).length, by simp, ?_⟩
  rw [← List.append_assoc]
  exact callAt?_length hhands

theorem Kept.overtakes_iff (h : Kept ms) (hend : (standing ms).frames = [])
    (hcall : callAt? ms t = some (n, j)) :
    (∃ t' i, t < t' ∧ i < j ∧ callAt? ms t' = some (n, i)) ↔
      ∃ i < j, (standing (ms.take t)).Awaits n i := by
  obtain ⟨v, rest, hms, hj, hlen⟩ := callAt?_eq_some hcall
  constructor
  · rintro ⟨t', i, ht, hi, hlater⟩
    obtain ⟨v', rest', -, hi', -⟩ := callAt?_eq_some hlater
    obtain ⟨mid, hmid⟩ : ms.take t <+: ms.take t' := List.take_prefix_take_left (by omega)
    -- the earlier event had begun its delivery by then, so its delivery waited from the start
    have hlate : (standing (ms.take t ++ mid)).Awaits n i := hmid ▸ hi'.awaits
    exact ⟨i, hi, awaits_past hlate (Nat.lt_trans hi hj.awaits.delivered)⟩
  · rintro ⟨i, hi, ha⟩
    clear hcall
    generalize ms.take t = past at hms hj hlen ha
    subst hms hlen
    -- the callback at hand is called for another event, so the earlier one goes on waiting for it
    have hnext : (standing (past ++ [.begins (.callback n v)])).Awaits n i := by
      rw [standing_concat]
      exact (Allows.awaits h.next ha).resolve_right fun hh => Nat.ne_of_lt hi (hh.2.inj hj)
    rw [List.append_cons] at h hend ⊢
    obtain ⟨t', ht, hcall⟩ := h.call_comes hend hnext
    rw [List.length_append] at ht
    exact ⟨t', i, ht, hi, hcall⟩

end Order

/-- Events leave the queue as the board published them, and callbacks are called for the events that
are delivered. A callback gets an earlier event after a later one exactly when it gets the later one
while the delivery of an earlier one has yet to call it: in a delivery within that delivery. -/
theorem overtaken_iff_awaited {settings : String} {dom : Dom} {console : Log.Console}
    {levels : Nat} {script : Program} {ms : List Moment}
    (h : Site.accountOf settings (Tab.new dom console) levels script = .ok ms) :
    (∀ past rest, ms = past ++ rest → published past = raised past ++ (standing past).due ∧
      raised past = delivered past ++ (standing past).queue) ∧
    (∀ past n v rest, ms = past ++ .begins (.callback n v) :: rest →
      ∃ k e, callAt? ms past.length = some (n, k) ∧ (raised past)[k]? = some e ∧
        v = .sent e.toJson) ∧
    ∀ t n j, callAt? ms t = some (n, j) →
      ((∃ t' i, t < t' ∧ i < j ∧ callAt? ms t' = some (n, i)) ↔
        ∃ i < j, (standing (ms.take t)).Awaits n i) := by
  obtain ⟨hkept, hend, -⟩ := Site.accountOf_kept h
  refine ⟨?_, ?_, fun t n j => hkept.overtakes_iff hend⟩
  · rintro past rest rfl
    exact ⟨hkept.past.published_eq, hkept.past.raised_eq⟩
  · rintro past n v rest rfl
    obtain ⟨k, e, hhands, he, rfl⟩ := hkept.called
    exact ⟨k, e, callAt?_length hhands, he, rfl⟩

def dropsAgain : Program :=
  .call .retrieve fun
    | .ok .undefined => .calls [.remember .null, .dragTemplate "Step" ⟨0, 0⟩, .dragStop ⟨30, 40⟩]
    | _ => .returns .undefined

def dropsWithin : Program :=
  .calls (setup ++ [.on .placement fun _ => dropsAgain,
    .on .placement fun _ => .returns .undefined, .dragTemplate "Step" ⟨0, 0⟩, .dragStop ⟨10, 20⟩])

theorem overtaken_within_delivery :
    ∃ ms, Site.accountOf "" (Tab.new sheet .empty) 9 dropsWithin = .ok ms ∧
      callAt? ms 76 = some (1, 1) ∧ ∃ i < 1, (standing (ms.take 76)).Awaits 1 i := by
  have h : Site.accountOf "" (Tab.new sheet .empty) 9 dropsWithin = .ok _ := rfl
  refine ⟨_, h, by decide +kernel, ?_⟩
  refine ((overtaken_iff_awaited h).2.2 76 1 1 (by decide +kernel)).mp ?_
  exact ⟨83, 0, by decide, by decide, by decide +kernel⟩

/-- The second callback gets the second drop before the first one. -/
theorem second_drop_before_first :
    ∃ ms, Site.accountOf "" (Tab.new sheet .empty) 9 dropsWithin = .ok ms ∧
      published ms = [.placement ⟨"Step", ⟨10, 20⟩⟩, .placement ⟨"Step", ⟨30, 40⟩⟩] ∧
      callAt? ms 76 = some (1, 1) ∧ callAt? ms 83 = some (1, 0) ∧
      ∀ t < 76, callAt? ms t ≠ some (1, 0) := by
  refine ⟨_, rfl, rfl, ?_, ?_, ?_⟩
  · decide +kernel
  · decide +kernel
  · decide +kernel

end DiagramEditor.Browser
