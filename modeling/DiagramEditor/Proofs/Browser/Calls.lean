import DiagramEditor.Proofs.Browser.Delivery

/-! The calls of callbacks. When its delivery begins an event is for those that listen for it, and
in the end these have been called for it, once each and in their order. -/
namespace DiagramEditor.Browser

open Standing (Allows)

namespace Tab

variable {h : Nat} {l : Listener} {t : Table Nat Listener}

theorem mem_insertListener {e : Nat × Listener} (he : e ∈ insertListener h l t) :
    e = (h, l) ∨ e ∈ t := by
  induction t with
  | nil => exact Or.inl (List.mem_singleton.mp he)
  | cons a rest ih =>
    rw [insertListener] at he
    split at he
    · exact List.mem_cons.mp he
    · split at he
      · exact (List.mem_cons.mp he).imp_right (List.mem_cons_of_mem a)
      · rcases List.mem_cons.mp he with rfl | he
        · exact Or.inr List.mem_cons_self
        · exact (ih he).imp_right (List.mem_cons_of_mem a)

theorem nodup_insertListener (ht : (t.map (·.2.callback)).Nodup)
    (hl : ∀ e ∈ t, e.2.callback ≠ l.callback) :
    ((insertListener h l t).map (·.2.callback)).Nodup := by
  induction t with
  | nil => simp [insertListener]
  | cons a rest ih =>
    have hnew : l.callback ∉ (a :: rest).map (·.2.callback) := by
      intro hmem
      obtain ⟨e, he, hel⟩ := List.mem_map.mp hmem
      exact hl e he hel
    obtain ⟨ha, hrest⟩ := List.nodup_cons.mp ht
    have ih := ih hrest fun e he => hl e (List.mem_cons_of_mem a he)
    rw [insertListener]
    split
    · exact List.nodup_cons.mpr ⟨hnew, ht⟩
    · split
      · exact List.nodup_cons.mpr ⟨fun hmem => hnew (List.mem_cons_of_mem _ hmem), hrest⟩
      · refine List.nodup_cons.mpr ⟨fun hmem => ?_, ih⟩
        obtain ⟨e, he, hea⟩ := List.mem_map.mp hmem
        rcases mem_insertListener he with rfl | he
        · exact hl a List.mem_cons_self hea.symm
        · exact ha (List.mem_map.mpr ⟨e, he, hea⟩)

theorem nodup_audience (ht : (t.map (·.2.callback)).Nodup) (kind : EventKind) :
    (audience t kind).Nodup :=
  ht.sublist (List.filter_sublist.map _)

end Tab

structure Standing.Distinct (s : Standing) : Prop where
  listeners : (s.listeners.map (·.2.callback)).Nodup
  registered : ∀ e ∈ s.listeners, e.2.callback < s.callbacks.length

theorem Standing.Allows.distinct {s : Standing} {m : Moment} (h : s.Allows m) (hs : s.Distinct) :
    (s.after m).Distinct := by
  cases h with
  | register hf hh hl =>
    subst hl
    refine ⟨Tab.nodup_insertListener hs.listeners ?_, fun e he => ?_⟩
    · exact fun e he => Nat.ne_of_lt (hs.registered e he)
    · rw [Standing.after, List.length_append]
      rcases Tab.mem_insertListener he with rfl | he
      · exact Nat.lt_succ_self _
      · exact Nat.lt_succ_of_lt (hs.registered e he)
  | remove =>
    refine ⟨hs.listeners.sublist (List.filter_sublist.map _), fun e he => ?_⟩
    exact hs.registered e (Table.mem_erase.mp he).1
  | _ => exact ⟨hs.listeners, hs.registered⟩

theorem Kept.distinct {ms : List Moment} (h : Kept ms) : (standing ms).Distinct :=
  h.invariant ⟨List.nodup_nil, by simp [Standing.start]⟩ Allows.distinct

/-- The calls of callbacks, in order, each with the number of the event that it is for. -/
def called (ms : List Moment) : List (Nat × Nat) :=
  (List.range ms.length).filterMap (callAt? ms)

def calls (ms : List Moment) (k : Nat) : List Nat :=
  (called ms).filterMap fun c => if c.2 = k then some c.1 else none

/-- The callbacks that deliveries of event number `k` have yet to call. -/
def Frame.left (k : Nat) : Frame → List Nat
  | .delivery j _ ws => if j = k then ws else []
  | _ => []

def Standing.left (k : Nat) (s : Standing) : List Nat := s.frames.flatMap (Frame.left k)

theorem callAt?_append {ms : List Moment} {t : Nat} (ht : t < ms.length) (ns : List Moment) :
    callAt? (ms ++ ns) t = callAt? ms t := by
  simp only [callAt?, List.getElem?_append_left ht, List.take_append_of_le_length (Nat.le_of_lt ht)]

theorem called_concat (ms : List Moment) (m : Moment) :
    called (ms ++ [m]) = called ms ++ (callAt? (ms ++ [m]) ms.length).toList := by
  have hpast : (List.range ms.length).filterMap (callAt? (ms ++ [m])) = called ms :=
    List.filterMap_congr fun t ht => callAt?_append (List.mem_range.mp ht) [m]
  rw [called, List.length_append, List.length_singleton, List.range_succ, List.filterMap_append,
    hpast]
  cases h : callAt? (ms ++ [m]) ms.length <;> simp [h]

theorem calls_concat_of_none {ms : List Moment} {m : Moment}
    (h : callAt? (ms ++ [m]) ms.length = none) (k : Nat) : calls (ms ++ [m]) k = calls ms k := by
  rw [calls, called_concat, h]
  exact congrArg _ (List.append_nil _)

theorem callAt?_of_not_callback {ms : List Moment} {m : Moment}
    (h : ∀ n v, m ≠ .begins (.callback n v)) : callAt? (ms ++ [m]) ms.length = none := by
  simp only [callAt?, List.getElem?_concat_length]
  split
  · next n v k e n' ws up hm hf => exact absurd (Option.some.inj hm) (h n v)
  · rfl

theorem left_resumed (k : Nat) (a : Answer) (frames : List Frame) :
    (frames.modifyHead (Frame.resume a)).flatMap (Frame.left k) =
      frames.flatMap (Frame.left k) := by
  cases frames with
  | nil => rfl
  | cons f up => cases f <;> rfl

theorem Standing.Allows.left {s : Standing} {m : Moment} {k : Nat} (h : s.Allows m)
    (hk : k < s.delivered) (hm : ∀ n v, m ≠ .begins (.callback n v)) :
    (s.after m).left k = s.left k := by
  cases h with
  | callBack => exact absurd rfl (hm _ _)
  | deliver => simp [Standing.left, after, Frame.left, Nat.ne_of_gt hk]
  | answer hf => simp [Standing.left, after, hf, left_resumed, Frame.left]
  | overflow => simp [Standing.left, after, left_resumed]
  | deliveryEnds hf => simp [Standing.left, after, hf, Frame.left]
  | callbackEnds hf => simp [Standing.left, after, hf, Frame.left]
  | libraryEnds hf => simp [Standing.left, after, hf, Frame.left]
  | _ => simp [Standing.left, after, Frame.left]

section Calls
variable {ms past rest : List Moment} {m : Moment} {k : Nat}

theorem calls_callback {n j : Nat} {v : Value} (h : (standing ms).Hands n j) :
    calls (ms ++ [.begins (.callback n v)]) k ++
        ((standing ms).after (.begins (.callback n v))).left k =
      calls ms k ++ (standing ms).left k := by
  have ⟨e, ws, up, hf⟩ := h
  rw [calls, called_concat, callAt?_length h]
  by_cases hj : j = k <;>
    simp [calls, Standing.left, Standing.after, hf, Frame.pass, Frame.left, hj]

theorem Kept.calls_step (h : Kept (ms ++ [m])) (hk : k < (standing ms).delivered) :
    calls (ms ++ [m]) k ++ (standing (ms ++ [m])).left k =
      calls ms k ++ (standing ms).left k := by
  obtain ⟨-, hm⟩ := Kept.concat_iff.mp h
  rw [standing_concat]
  by_cases hcall : ∃ n v, m = .begins (.callback n v)
  · obtain ⟨n, v, rfl⟩ := hcall
    obtain ⟨j, e, hhands, -⟩ := Kept.called h
    exact calls_callback hhands
  · have hother : ∀ n v, m ≠ .begins (.callback n v) := fun n v hm => hcall ⟨n, v, hm⟩
    rw [calls_concat_of_none (callAt?_of_not_callback hother), hm.left hk hother]

theorem Kept.calls_rest (h : Kept (past ++ rest)) (hk : k < (standing past).delivered) :
    calls (past ++ rest) k ++ (standing (past ++ rest)).left k =
      calls past k ++ (standing past).left k := by
  induction rest using List.reverseRecOn with
  | nil => rw [List.append_nil]
  | append_singleton rest m ih =>
    rw [← List.append_assoc] at h ⊢
    rw [h.calls_step (Nat.lt_of_lt_of_le hk (delivered_mono past rest)), ih h.past]

theorem calls_of_le (hk : (standing ms).delivered ≤ k) : calls ms k = [] := by
  refine List.filterMap_eq_nil_iff.mpr fun c hc => if_neg ?_
  obtain ⟨t, -, ht⟩ := List.mem_filterMap.mp hc
  obtain ⟨v, rest, -, hhands, -⟩ := callAt?_eq_some ht
  have hlt := Nat.lt_of_lt_of_le hhands.awaits.delivered (delivered_mono (ms.take t) (ms.drop t))
  rw [List.take_append_drop] at hlt
  exact Nat.ne_of_lt (Nat.lt_of_lt_of_le hlt hk)

theorem left_of_le (hk : (standing ms).delivered ≤ k) : (standing ms).left k = [] := by
  refine List.flatMap_eq_nil_iff.mpr fun f hf => ?_
  cases f with
  | delivery j e ws =>
    obtain ⟨hj, -⟩ := List.getElem?_eq_some_iff.mp (delivered_getElem? hf)
    rw [← delivered_length] at hj
    exact if_neg (Nat.ne_of_lt (Nat.lt_of_lt_of_le hj hk))
  | _ => rfl

theorem Kept.calls_eq {e : Event} (h : Kept (past ++ .begins (.delivery e) :: rest))
    (hend : (standing (past ++ .begins (.delivery e) :: rest)).frames = []) :
    calls (past ++ .begins (.delivery e) :: rest) (delivered past).length =
      Tab.audience (standing past).listeners (.of e) := by
  rw [← delivered_length]
  have hnone : calls past (standing past).delivered = [] := calls_of_le (Nat.le_refl _)
  have hleft : (standing past).left (standing past).delivered = [] := left_of_le (Nat.le_refl _)
  have hbegun : (standing (past ++ [.begins (.delivery e)])).left (standing past).delivered =
      Tab.audience (standing past).listeners (.of e) := by
    rw [standing_concat]
    simpa [Standing.left, Standing.after, Frame.left] using hleft
  have hcalls : calls (past ++ [.begins (.delivery e)]) (standing past).delivered = [] :=
    (calls_concat_of_none (callAt?_of_not_callback (by simp)) _).trans hnone
  rw [List.append_cons] at h hend ⊢
  have hlater : (standing past).delivered <
      (standing (past ++ [.begins (.delivery e)])).delivered := by
    rw [standing_concat]
    exact Nat.lt_succ_self _
  -- called and left to call together are the audience all along, and in the end none is left
  have hrest := h.calls_rest hlater
  rw [hcalls, hbegun, Standing.left, hend] at hrest
  simpa using hrest

theorem Moment.eq_of_delivered? {e : Event} (h : m.delivered? = some e) :
    m = .begins (.delivery e) := by
  cases m with
  | begins a =>
    cases a with
    | delivery e' => exact congrArg _ (congrArg _ (Option.some.inj h))
    | _ => cases h
  | _ => cases h

theorem exists_delivered {e : Event} (h : (delivered ms)[k]? = some e) :
    ∃ past rest, ms = past ++ .begins (.delivery e) :: rest ∧ (delivered past).length = k := by
  induction ms using List.reverseRecOn with
  | nil => cases h
  | append_singleton ms m ih =>
    rw [delivered_concat] at h
    by_cases hk : k < (delivered ms).length
    · rw [List.getElem?_append_left hk] at h
      obtain ⟨past, rest, rfl, hlen⟩ := ih h
      exact ⟨past, rest ++ [m], by simp, hlen⟩
    · rw [List.getElem?_append_right (Nat.le_of_not_lt hk)] at h
      obtain ⟨hlt, hm⟩ := List.getElem?_eq_some_iff.mp h
      have hone : m.delivered? = some e := Option.mem_toList.mp (hm ▸ List.getElem_mem hlt)
      have hlast : k - (delivered ms).length = 0 := by
        rw [hone] at hlt
        exact Nat.lt_one_iff.mp hlt
      exact ⟨ms, [], by rw [Moment.eq_of_delivered? hone], by omega⟩

theorem Kept.calls_nodup (h : Kept ms) (hend : (standing ms).frames = []) (k : Nat) :
    (calls ms k).Nodup := by
  cases he : (delivered ms)[k]? with
  | none =>
    have hk := List.getElem?_eq_none_iff.mp he
    rw [← delivered_length] at hk
    exact calls_of_le hk ▸ List.nodup_nil
  | some e =>
    obtain ⟨past, rest, rfl, rfl⟩ := exists_delivered he
    exact h.calls_eq hend ▸ Tab.nodup_audience h.past.distinct.listeners _

theorem Kept.callAt?_unique (h : Kept ms) (hend : (standing ms).frames = []) {n t t' : Nat}
    (ht : callAt? ms t = some (n, k)) (ht' : callAt? ms t' = some (n, k)) : t = t' := by
  have hrange : ∀ {t}, callAt? ms t = some (n, k) → t < (List.range ms.length).length := by
    intro t ht
    obtain ⟨v, rest, hms, -, hlen⟩ := callAt?_eq_some ht
    rw [List.length_range, hms, List.length_append, hlen]
    exact Nat.lt_add_of_pos_right (Nat.succ_pos _)
  have hpairs := List.pairwise_iff_getElem.mp
    (List.pairwise_filterMap.mp (List.pairwise_filterMap.mp (h.calls_nodup hend k)))
  have hlate : ∀ {t t'}, callAt? ms t = some (n, k) → callAt? ms t' = some (n, k) → t' ≤ t := by
    intro t t' ht ht'
    refine Nat.le_of_not_lt fun hlt => ?_
    have hdiffer := hpairs t t' (hrange ht) (hrange ht') hlt
    simp only [List.getElem_range] at hdiffer
    exact hdiffer _ ht _ ht' n (if_pos rfl) n (if_pos rfl) rfl
  exact Nat.le_antisymm (hlate ht' ht) (hlate ht ht')

end Calls

end DiagramEditor.Browser
