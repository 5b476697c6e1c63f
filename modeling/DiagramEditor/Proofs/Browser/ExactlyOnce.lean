import DiagramEditor.Proofs.Browser.Calls
import DiagramEditor.Proofs.Lasting

/-! Who gets an event. Callbacks are registered under handles that count up, and each event that the
board publishes calls those that are registered for its kind when its delivery begins, once each and
in the order in which they were registered. Whether they throw, register, take away or call the
board makes no difference to that. -/
namespace DiagramEditor.Browser

open Standing (Allows)

def Moment.registered? : Moment → Option (Nat × Listener)
  | .registers h l _ => some (h, l)
  | _ => none

def Moment.takesAway (r : Nat × Listener) : Moment → Bool
  | .removes h _ => r.1 == h
  | _ => false

/-- Handles with what was registered under them, in order. -/
def registrations (ms : List Moment) : List (Nat × Listener) := ms.filterMap Moment.registered?

/-- The registrations that have not been taken away since. -/
def listening (ms : List Moment) : List (Nat × Listener) :=
  lasting Moment.registered? Moment.takesAway ms

theorem registrations_concat (ms : List Moment) (m : Moment) :
    registrations (ms ++ [m]) = registrations ms ++ m.registered?.toList :=
  List.filterMap_append

theorem listening_concat (ms : List Moment) (m : Moment) :
    listening (ms ++ [m]) =
      ((listening ms).filter fun r => !m.takesAway r) ++ m.registered?.toList :=
  lasting_concat ms m

theorem callbacks_length (ms : List Moment) :
    (standing ms).callbacks.length = (registrations ms).length := by
  induction ms using List.reverseRecOn with
  | nil => rfl
  | append_singleton ms m ih =>
    rw [standing_concat, registrations_concat, List.length_append, ← ih]
    cases m with
    | begins a => cases a <;> rfl
    | registers h l c => simp [Standing.after, Moment.registered?]
    | _ => rfl

theorem Tab.insertListener_of_lt {h : Nat} {l : Listener} {t : Table Nat Listener}
    (ht : ∀ e ∈ t, e.1 < h) : Tab.insertListener h l t = t ++ [(h, l)] := by
  induction t with
  | nil => rfl
  | cons e rest ih =>
    obtain ⟨he, hrest⟩ := List.forall_mem_cons.mp ht
    rw [insertListener, if_neg (Nat.not_lt_of_gt he), if_neg (Nat.ne_of_gt he), ih hrest]
    rfl

section Registrations
variable {ms : List Moment} (h : Kept ms)
include h

theorem Kept.registrations_eq :
    (registrations ms).map (fun r => (r.1, r.2.callback)) =
      (List.range (registrations ms).length).map fun n => (n % Tab.handleBound, n) := by
  induction h with
  | nil => rfl
  | @snoc ms m _ hm ih =>
    rw [registrations_concat]
    cases hm with
    | register hf hh hl hn =>
      subst hl hn
      simp [Moment.registered?, ih, callbacks_length, List.range_succ]
    | _ => simpa [Moment.registered?] using ih

theorem Kept.callbacks_eq :
    (registrations ms).map (·.2.callback) = List.range (registrations ms).length := by
  have hpairs := congrArg (List.map Prod.snd) h.registrations_eq
  simpa [Function.comp_def] using hpairs

variable (hb : (registrations ms).length ≤ Tab.handleBound)
include hb

theorem Kept.handles_eq :
    (registrations ms).map (·.1) = List.range (registrations ms).length := by
  have hpairs := congrArg (List.map Prod.fst) h.registrations_eq
  have hsmall : (List.range (registrations ms).length).map (· % Tab.handleBound) =
      (List.range (registrations ms).length).map fun n => n :=
    List.map_congr_left fun n hn =>
      Nat.mod_eq_of_lt (Nat.lt_of_lt_of_le (List.mem_range.mp hn) hb)
  simpa [Function.comp_def, hsmall] using hpairs

theorem Kept.listeners_eq : (standing ms).listeners = listening ms := by
  induction h with
  | nil => rfl
  | @snoc ms m h hm ih =>
    rw [registrations_concat, List.length_append] at hb
    have ih := ih (Nat.le_trans (Nat.le_add_right _ _) hb)
    rw [standing_concat, listening_concat]
    cases hm with
    | @register handle l kind c up held hf hh hl hn =>
      -- handles before this one are smaller, so its place is at the end
      have hlt : ∀ r ∈ listening ms, r.1 < handle := by
        intro r hr
        have hmem := List.mem_map_of_mem (f := Prod.fst) ((lasting_sublist ms).subset hr)
        rw [← registrations, h.handles_eq (Nat.le_trans (Nat.le_add_right _ _) hb),
          List.mem_range] at hmem
        rw [hn, callbacks_length, Nat.mod_eq_of_lt hb]
        exact hmem
      simp only [Standing.after, ih]
      rw [Tab.insertListener_of_lt hlt]
      simp [Moment.registered?, Moment.takesAway]
    | remove hf hh hn hl =>
      simp [Standing.after, ih, Table.erase, Moment.takesAway, Moment.registered?, bne]
    | _ => simpa [Standing.after, Moment.registered?, Moment.takesAway] using ih

end Registrations

def registration (kind : EventKind) (c : Value → Program) (handle number : Nat) : List Moment :=
  [.begins (.method (.on kind c)), .borrows .listeners, .registers handle ⟨kind, number⟩ c,
    .returns .listeners, .answers (.on kind c) (.ok (.number handle.toFloat))]

theorem Site.run_on (levels : Nat) (s : Site) (kind : EventKind) (c : Value → Program) :
    let handle := s.outside.nextHandle
    let number := s.outside.callbacks.length
    let r := run (levels + 1) (.op (.on kind c)) s
    r.1 = .ok (.number handle.toFloat) ∧
      r.2.outside.account = s.outside.account ++ registration kind c handle number ∧
      r.2.outside.callbacks[number]? = some c := by
  simp [run, perform, act, Tab.register, tell, Desk.onOutside, Tab.tell, registration]

theorem Site.run_dragStop (levels : Nat) {s : Site} (p : Point) (hb : s.busy = false) :
    s.outside.account ++
        [.begins (.method (.dragStop p)), .borrows .board, .works s.board (.stop p)] <+:
      (run (levels + 1) (.op (.dragStop p)) s).2.outside.account := by
  have hbegun : (s.tell [.begins (.method (.dragStop p))]).busy = false := hb
  have htold := work_told (run_grown levels) hbegun (.stop p)
  rw [Site.tell, Desk.onOutside, Tab.tell, List.append_assoc] at htold
  exact htold.tell _

/-- The scripts of a page come to an end with an account: it is theirs with more levels than it has
moments, and every level that they go down has a moment of its own. -/
def Site.Ends (settings : String) (t : Tab) (script : Program) (ms : List Moment) : Prop :=
  ∃ levels, ms.length < levels ∧ accountOf settings t levels script = .ok ms

theorem Site.ends_of_stable {settings : String} {t : Tab} {levels : Nat} {script : Program}
    {ms : List Moment} (h : ∀ more, accountOf settings t (levels + more) script = .ok ms) :
    Ends settings t script ms :=
  ⟨levels + (ms.length + 1), by omega, h (ms.length + 1)⟩

/-- Who gets event number `k`, whose delivery begins after a past. -/
structure Reached (ms past : List Moment) (k : Nat) (e : Event) : Prop where
  audience : calls ms k =
    ((listening past).filter fun r => r.2.kind == .of e).map (·.2.callback)
  once : (calls ms k).Nodup
  others : ∀ r ∈ registrations ms, r.2.callback ∈ calls ms k →
    r ∈ listening past ∧ r.2.kind = .of e

theorem registrations_mono (past rest : List Moment) :
    (registrations past).Sublist (registrations (past ++ rest)) :=
  (List.sublist_append_left past rest).filterMap _

theorem Kept.reached {past rest : List Moment} {e : Event}
    (h : Kept (past ++ .begins (.delivery e) :: rest))
    (hend : (standing (past ++ .begins (.delivery e) :: rest)).frames = [])
    (hb : (registrations (past ++ .begins (.delivery e) :: rest)).length ≤ Tab.handleBound) :
    Reached (past ++ .begins (.delivery e) :: rest) past (delivered past).length e := by
  have hmono := registrations_mono past (.begins (.delivery e) :: rest)
  have haudience := h.calls_eq hend
  rw [h.past.listeners_eq (Nat.le_trans hmono.length_le hb)] at haudience
  have hnodup : ((registrations (past ++ .begins (.delivery e) :: rest)).map
      (·.2.callback)).Nodup := h.callbacks_eq ▸ List.nodup_range
  have hlistening : (listening past).Sublist
      (registrations (past ++ .begins (.delivery e) :: rest)) := (lasting_sublist past).trans hmono
  refine ⟨haudience, ?_, fun r hr hcall => ?_⟩
  · rw [haudience]
    exact hnodup.sublist ((List.filter_sublist.trans hlistening).map _)
  -- no two registrations share a callback, so the one that was called is this one
  · rw [haudience] at hcall
    obtain ⟨r', hr', hsame⟩ := List.mem_map.mp hcall
    obtain ⟨hr', hkind⟩ := List.mem_filter.mp hr'
    obtain rfl : r' = r := List.inj_on_of_nodup_map hnodup (hlistening.subset hr') hr hsame
    exact ⟨hr', beq_iff_eq.mp hkind⟩

def dropsAndThrows : Program :=
  .call .retrieve fun
    | .ok .undefined =>
      .call (.remember .null) fun _ => .call (.dragTemplate "Step" ⟨0, 0⟩) fun _ =>
        .call (.dragStop ⟨30, 40⟩) fun _ => .throws (.string "no")
    | _ => .throws (.string "no")

def throwsWithin : Program :=
  .calls (setup ++ [.on .placement fun _ => dropsAndThrows,
    .on .move fun _ => .returns .undefined, .on .placement fun _ => .returns .undefined,
    .dragTemplate "Step" ⟨0, 0⟩, .dragStop ⟨10, 20⟩])

end DiagramEditor.Browser
