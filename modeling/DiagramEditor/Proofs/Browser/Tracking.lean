import DiagramEditor.Proofs.Browser.Account
import DiagramEditor.Proofs.Browser.Growth

/-! Every run of a page keeps an account in which each moment was allowed when it came, and the
account tells where the page stands. No event is left waiting at its end unless the run has used up
its levels. -/
namespace DiagramEditor.Browser

open Signal (queued)
open Standing (Allows Follows)

namespace Site

def stands (s : Site) (frames : List Frame) (due : List Event) (delivered : Nat) : Standing where
  frames := frames
  held := bif s.busy then [.board] else []
  queue := s.outbox
  due := due
  listeners := s.outside.listeners
  callbacks := s.outside.callbacks
  methods := s.outside.methods
  delivered := delivered

def told (s : Site) :=
  (s.board, s.busy, s.outbox, s.outside.account, s.outside.listeners, s.outside.nextHandle,
    s.outside.callbacks, s.outside.methods)

/-- The account is well kept and tells where the page stands. The board is free, or in use with some
events that it has yet to put into the queue. -/
structure Tracks (s : Site) (frames : List Frame) (use : Option (List Event)) : Prop where
  kept : Kept s.outside.account
  busy : s.busy = use.isSome
  standing : ∃ k, standing s.outside.account = s.stands frames (use.getD []) k
  -- handles count the registrations, as far as they can
  numbered : s.outside.nextHandle = s.outside.callbacks.length % Tab.handleBound
  fed : s.board.Feeds 0 0

def Script (frames : List Frame) (use : Option (List Event)) : Prop :=
  InScript frames ∧ use = none ∨ InLibrary frames ∧ use.isSome = true

/-- Events are left waiting only for want of levels: by then so much has happened. -/
def Cleared (levels : Nat) (s : Site) : Prop :=
  s.outbox = [] ∨ levels ≤ s.outside.account.length

/-- What turns keep one level down, with a number of levels from there on. -/
structure Sound (again : Again) (levels : Nat) : Prop where
  op : ∀ {op s frames use}, Script frames use → Calls op frames → Tracks s frames use →
    Tracks (again (.op op) s).2 (frames.modifyHead (.resume (again (.op op) s).1)) use
  deliver : ∀ {s op up}, ¬ InLibrary up → Tracks s (.method op :: up) none →
    Tracks (again .deliver s).2 (.method op :: up) none
  clears : ∀ {past s op up}, ¬ InLibrary up → Tracks s (.method op :: up) none → Grown past s →
    Cleared (past.length + levels) (again .deliver s).2
  grows : Grows again

section Moments
variable {s t : Site} {frames frames' : List Frame}
  {use use' : Option (List Event)}

theorem Tracks.goes (h : Tracks s frames use) (ms : List Moment)
    (ht : t.outside.account = s.outside.account ++ ms) (hb : t.busy = use'.isSome)
    (hn : t.outside.nextHandle = t.outside.callbacks.length % Tab.handleBound)
    (hfed : t.board.Feeds 0 0) (hf : ∀ k, Follows (s.stands frames (use.getD []) k) ms)
    (hs : ∀ k, ∃ k', ms.foldl Standing.after (s.stands frames (use.getD []) k) =
      t.stands frames' (use'.getD []) k') :
    Tracks t frames' use' := by
  obtain ⟨k, hk⟩ := h.standing
  refine ⟨?_, hb, ?_, hn, hfed⟩
  · rw [ht, Kept.append_iff, hk]
    exact ⟨h.kept, hf k⟩
  · rw [ht, standing_append, hk]
    exact hs k

theorem Tracks.aside (h : Tracks s frames use) (ht : t.told = s.told) :
    Tracks t frames use := by
  simp only [told, Prod.mk.injEq] at ht
  obtain ⟨hboard, hbusy, hout, haccount, hlisteners, hhandle, hcallbacks, hmethods⟩ := ht
  refine ⟨haccount ▸ h.kept, hbusy ▸ h.busy, ?_, ?_, hboard ▸ h.fed⟩
  · simpa only [stands, haccount, hbusy, hout, hlisteners, hcallbacks, hmethods] using h.standing
  · rw [hhandle, hcallbacks]
    exact h.numbered

theorem Tracks.add (h : Tracks s frames use) (e : Trace) :
    Tracks (s.add e) frames use :=
  h.aside rfl

theorem Tracks.log (h : Tracks s frames use) (e : Log.Entry) :
    Tracks (s.log e) frames use :=
  h.aside rfl

theorem Tracks.tells (h : Tracks s frames use) {m : Moment}
    (ha : ∀ k, (s.stands frames (use.getD []) k).Allows m)
    (hf : ∀ k, (s.stands frames (use.getD []) k).after m = s.stands frames' (use.getD []) k) :
    Tracks (s.tell [m]) frames' use :=
  h.goes _ rfl h.busy h.numbered h.fed (fun k => ⟨ha k, trivial⟩) fun k => ⟨k, hf k⟩

theorem Tracks.ends {f : Frame} (h : Tracks s (f :: frames) use) {a : Activity}
    (ha : ∀ k, (s.stands (f :: frames) (use.getD []) k).Allows (.ends a)) :
    Tracks (s.tell [.ends a]) frames use :=
  h.tells ha fun _ => rfl

theorem Tracks.held_none (h : Tracks s frames none) (due : List Event) (k : Nat) :
    (s.stands frames due k).held = [] := by
  simp [stands, h.busy]

theorem Tracks.held_some (h : Tracks s frames use) (hu : use.isSome = true)
    (due : List Event) (k : Nat) : (s.stands frames due k).held = [.board] := by
  simp [stands, h.busy, hu]

theorem Tracks.held (h : Tracks s frames use) (due : List Event) (k : Nat) :
    (s.stands frames due k).held = [] ∨ (s.stands frames due k).held = [.board] := by
  cases use with
  | none => exact Or.inl (h.held_none due k)
  | some es => exact Or.inr (h.held_some rfl due k)

end Moments

/-- Where things stand while a script runs, by what is left of it. -/
structure Runs (frames : Program → List Frame) (use : Option (List Event)) : Prop where
  script : ∀ p, Script (frames p) use
  calls : ∀ op next, Calls op (frames (.call op next))
  resumes : ∀ op next a, (frames (.call op next)).modifyHead (.resume a) = frames (next a)

theorem runs_page : Runs (fun _ => []) none where
  script := fun _ => Or.inl ⟨Or.inl rfl, rfl⟩
  calls := fun _ _ _ hf => nomatch hf
  resumes := fun _ _ _ => rfl

theorem runs_callback (n : Nat) (up : List Frame) : Runs (.callback n · :: up) none where
  script := fun p => Or.inl ⟨Or.inr ⟨n, p, up, rfl⟩, rfl⟩
  calls := fun _ _ _ hf => Option.some.inj hf ▸ rfl
  resumes := fun _ _ _ => rfl

theorem runs_library (name : String) (up : List Frame) (due : List Event) :
    Runs (.library name · :: up) (some due) where
  script := fun p => Or.inr ⟨⟨name, p, up, rfl⟩, rfl⟩
  calls := fun _ _ _ hf => Option.some.inj hf ▸ rfl
  resumes := fun _ _ _ => rfl

theorem execute_tracks {again : Again} {levels : Nat} (ha : Sound again levels)
    {s : Site} {frames : Program → List Frame} {use : Option (List Event)}
    (hr : Runs frames use) (p : Program) (h : Tracks s (frames p) use) :
    ∃ q, q.done = true ∧ Tracks (execute again p s).2 (frames q) use := by
  fun_induction execute again p s with
  | case1 v s => exact ⟨_, rfl, h⟩
  | case2 v s => exact ⟨_, rfl, h⟩
  | case3 op next s answer s' hop ih =>
    have hcalled := ha.op (hr.script _) (hr.calls op next) h
    rw [hop, hr.resumes] at hcalled
    exact ih hcalled

section Library
variable {again : Again} {levels : Nat} (ha : Sound again levels) {s : Site} {up : List Frame}
  {op : Op} {due : List Event}
include ha

theorem invoke_tracks (hl : ¬ InLibrary up) (h : Tracks s (.method op :: up) (some due))
    {name : String} {arguments : List Value} :
    Tracks (invoke again name arguments s).2 (.method op :: up) (some due) := by
  simp only [invoke]
  split
  · exact h
  · exact h
  · exact h
  · next body hbody =>
    -- what the function runs, it runs with the board in use
    have hbegun : Tracks (tell s [.begins (.library name arguments)])
        (.library name (body arguments) :: .method op :: up) (some due) := by
      refine h.tells (fun k => .invoke rfl hl (h.held_some rfl _ k) hbody) fun k => ?_
      simp [Standing.after, Standing.programOf, stands, hbody]
    obtain ⟨q, hq, hrun⟩ := execute_tracks ha (runs_library name _ due) _
      (hbegun.add (.call name arguments))
    exact hrun.ends fun _ => .libraryEnds rfl hq

theorem host_keeps (hl : ¬ InLibrary up) :
    (host again).Keeps fun s => Tracks s (.method op :: up) (some due) where
  invoke := fun h => invoke_tracks ha hl h
  setStyle := by
    intro n property value s h
    simp only [host, setStyle]
    split
    · exact h.add _
    · exact h.add _
  parse := fun h => h

theorem library_tracks (hl : ¬ InLibrary up) (h : Tracks s (.method op :: up) (some due))
    (c : Wiring.Call) : Tracks (library again c s).2 (.method op :: up) (some due) := by
  have hcalled := Adapter.library_keeps (host_keeps ha hl) c (a := ⟨s, s.outside.registry⟩) h
  exact hcalled.aside rfl

omit ha in
theorem raise_tracks (hl : ¬ InLibrary up) {e : Event}
    (h : Tracks s (.method op :: up) (some (e :: due))) :
    Tracks ((s.onOutside (Tab.raise e)).push e) (.method op :: up) (some due) := by
  refine h.goes _ rfl h.busy h.numbered h.fed (fun k => ?_) fun k => ⟨k, rfl⟩
  have hb := h.held_some rfl (e :: due) k
  exact ⟨.takeQueue rfl hl (Or.inr hb), .raise rfl hl (congrArg (Part.queue :: ·) hb) rfl,
    .giveQueue rfl hl rfl, trivial⟩

omit ha in
variable (again) in
theorem note_tracks (hl : ¬ InLibrary up) (n : Note)
    (h : Tracks s (.method op :: up) (some (queued [.note n] ++ due))) :
    Tracks ((surroundings again).note n s) (.method op :: up) (some due) := by
  cases n with
  | placement who p =>
    cases who with
    | outbox => exact raise_tracks hl h
    | listener i => exact h
  | move who m =>
    cases who with
    | outbox => exact raise_tracks hl h
    | listener i => exact h
  | log e => exact h.log e
  | _ => exact h

theorem step_tracks (hl : ¬ InLibrary up) {b : Board} (hb : b.Feeds 0 0) (made : Board.Op)
    (h : Tracks s (.method op :: up) (some (b.event? made).toList)) :
    Tracks (Board.step (surroundings again) made b s).outside (.method op :: up)
      (some []) := by
  have htrail := Board.step_trail (surroundings again).recorded b ⟨s, []⟩ made
  have hall := htrail.keeps_outside
    (P := fun r => ∀ due, queued r.signals ++ due = (b.event? made).toList →
      Tracks r.inner (.method op :: up) (some due)) ?_ ?_ ?_
  · rw [Board.step_turn]
    exact hall [] ((List.append_nil _).trans (hb.queued_turn (surroundings again) made s))
  · intro c r hr due hdue
    refine library_tracks ha hl (hr due ?_) c
    rw [← hdue]
    simp [Surroundings.recorded, queued, Signal.queued?]
  · intro n r hr due hdue
    refine note_tracks again hl n (hr _ ?_)
    rw [← hdue, ← List.append_assoc, ← Signal.queued_append]
    rfl
  · rintro due rfl
    exact h

end Library

section Deliver
variable {again : Again} {levels : Nat} (ha : Sound again levels) {s : Site} {up : List Frame}
  {op : Op} {e : Event} {k n : Nat} {ws : List Nat}
include ha

theorem callBack_tracks (h : Tracks s (.delivery k e (n :: ws) :: up) none) :
    Tracks (callBack again (.sent e.toJson) s n) (.delivery k e ws :: up) none := by
  have hbegun : Tracks (tell s [.begins (.callback n (.sent e.toJson))])
      (.callback n (bodyOf s.outside.callbacks n (.sent e.toJson)) :: .delivery k e ws :: up)
      none :=
    h.tells (fun k => .callBack rfl (h.held_none _ k)) fun _ => rfl
  obtain ⟨q, hq, hrun⟩ := execute_tracks ha (runs_callback n _) _
    (hbegun.add (.callback n (.sent e.toJson)))
  simp only [callBack]
  split
  · exact hrun.ends fun _ => .callbackEnds rfl hq
  · exact (hrun.log _).ends fun _ => .callbackEnds rfl hq

theorem callBacks_tracks (h : Tracks s (.delivery k e ws :: up) none) :
    Tracks (ws.foldl (callBack again (.sent e.toJson)) s) (.delivery k e [] :: up) none := by
  induction ws generalizing s with
  | nil => exact h
  | cons n ws ih => exact ih (callBack_tracks ha h)

theorem deliverEvent_tracks (hl : ¬ InLibrary up) (h : Tracks s (.method op :: up) none)
    {rest : List Event} (hq : s.outbox = e :: rest) :
    Tracks (deliverEvent again e { s with outbox := rest }) (.method op :: up) none := by
  obtain ⟨k, hk⟩ := h.standing
  have hb := h.held_none [] k
  have hat : ∀ ws, AtListeners (.delivery k e ws :: .method op :: up) :=
    fun ws => Or.inl ⟨k, e, ws, _, rfl⟩
  -- the event has left the queue before the account tells so, hence no use of `Tracks.goes`
  have hbegun : Tracks
      (tell { s with outbox := rest }
        [.begins (.delivery e), .borrows .listeners, .returns .listeners])
      (.delivery k e (Tab.audience s.outside.listeners (.of e)) :: .method op :: up) none := by
    refine ⟨?_, h.busy, ⟨k + 1, ?_⟩, h.numbered, h.fed⟩
    · refine Kept.append_iff.mpr ⟨h.kept, hk ▸ ?_⟩
      exact ⟨.deliver rfl hl hb (congrArg List.head? hq), .takeListeners (hat _) (Or.inl hb),
        .giveListeners (hat _) rfl, trivial⟩
    · refine (standing_append _ _).trans (hk ▸ ?_)
      simp [Standing.after, stands, hq, h.busy, tell, Desk.onOutside, Tab.tell]
  exact (callBacks_tracks ha hbegun).ends fun _ => .deliveryEnds rfl

omit ha in
theorem asked_tracks (hl : ¬ InLibrary up) (h : Tracks s (.method op :: up) none) :
    Tracks (tell s [.borrows .queue, .returns .queue]) (.method op :: up) none := by
  refine h.goes _ rfl h.busy h.numbered h.fed (fun k => ?_) fun k => ⟨k, rfl⟩
  exact ⟨.takeQueue rfl hl (Or.inl (h.held_none _ k)), .giveQueue rfl hl rfl, trivial⟩

theorem deliver_tracks (hl : ¬ InLibrary up) (h : Tracks s (.method op :: up) none) :
    Tracks (deliver again s).2 (.method op :: up) none := by
  have hasked := asked_tracks hl h
  simp only [deliver, Desk.pop?]
  cases hq : (tell s [.borrows .queue, .returns .queue]).outbox with
  | nil => exact hasked
  | cons e rest => exact ha.deliver hl (deliverEvent_tracks ha hl hasked hq)

theorem deliver_clears {past : List Moment} (hl : ¬ InLibrary up)
    (h : Tracks s (.method op :: up) none) (hg : Grown past s) :
    Cleared (past.length + (levels + 1)) (deliver again s).2 := by
  have hasked := asked_tracks hl h
  have hlonger : past.length + 1 ≤
      (tell s [.borrows .queue, .returns .queue]).outside.account.length := by
    have hlen := hg.length_le
    simp only [tell, Desk.onOutside, Tab.tell, List.length_append, List.length_cons]
    omega
  simp only [deliver, Desk.pop?]
  cases hq : (tell s [.borrows .queue, .returns .queue]).outbox with
  | nil => exact Or.inl hq
  | cons e rest =>
    have hhere : Grown (tell s [.borrows .queue, .returns .queue]).outside.account
        { tell s [.borrows .queue, .returns .queue] with outbox := rest } := List.prefix_rfl
    refine (ha.clears hl (deliverEvent_tracks ha hl hasked hq)
      (deliverEvent_grown ha.grows hhere e)).imp_right fun hmany => ?_
    exact Nat.le_trans (by omega) hmany

end Deliver

/-- Work of someone who uses the board, at the end of which all that was published is queued. -/
structure Works {α : Type} (f : Board → Site → Outcome Site α) (frames : List Frame) : Prop where
  feeds : ∀ {b s}, b.Feeds 0 0 → (f b s).board.Feeds 0 0
  tracks : ∀ {b s}, b.Feeds 0 0 → Tracks s frames (some []) →
    Tracks (f b s).outside frames (some [])
  grown : ∀ {past s} b, Grown past s → Grown past (f b s).outside

/-- The answer that a script gets on a free board, and the page it is left with: with an empty queue
as far as the levels go, given what is to be given. -/
structure Served (past : List Moment) (levels : Nat) (given : Prop) (r : Answer × Site)
    (frames : List Frame) : Prop where
  tracks : Tracks r.2 frames none
  answer : r.1 ≠ .error .busy
  clear : given → Cleared (past.length + levels) r.2

theorem asks_connect {source target : String} (h : (Op.connect source target).asks = true) :
    ∃ first second, Uuid.parse? source = some first ∧ Uuid.parse? target = some second := by
  obtain ⟨hfirst, hsecond⟩ := Bool.and_eq_true_iff.mp h
  obtain ⟨first, hfirst⟩ := Option.isSome_iff_exists.mp hfirst
  obtain ⟨second, hsecond⟩ := Option.isSome_iff_exists.mp hsecond
  exact ⟨first, second, hfirst, hsecond⟩

section Use
variable {again : Again} {levels : Nat} {past : List Moment} {s : Site} {up : List Frame} {op : Op}
  {use : Option (List Event)} {α : Type} {given : Prop}

variable (again) in
theorem useBoard_free (hb : s.busy = false) (f : Board → Site → Outcome Site α) :
    ∃ a, (useBoard again f s).1 = .ok a := by
  simp only [useBoard, Desk.use, hb]
  exact ⟨_, rfl⟩

theorem useBoard_busy (hb : s.busy = true) (f : Board → Site → Outcome Site α) :
    useBoard again f s = (.error .busy, s.tell [.refuses]) := by
  simp only [useBoard, Desk.use, hb]
  rfl

theorem takes_tracks (hl : ¬ InLibrary up) (h : Tracks s (.method op :: up) none) :
    Tracks (tell { s with busy := true } [.borrows .board]) (.method op :: up) (some []) := by
  refine h.goes _ rfl rfl h.numbered h.fed
    (fun k => ⟨.takeBoard rfl hl (h.held_none _ k), trivial⟩) fun k => ⟨k, ?_⟩
  simp [Standing.after, stands, h.busy, tell, Desk.onOutside, Tab.tell]

theorem returns_tracks (hl : ¬ InLibrary up) (h : Tracks s (.method op :: up) (some []))
    {b : Board} (hb : b.Feeds 0 0) :
    Tracks (tell { s with board := b, busy := false } [.returns .board])
      (.method op :: up) none := by
  refine h.goes _ rfl rfl h.numbered hb
    (fun k => ⟨.giveBoard rfl hl (h.held_some rfl _ k) rfl, trivial⟩) fun k => ⟨k, ?_⟩
  simp [Standing.after, stands, h.busy, tell, Desk.onOutside, Tab.tell]

theorem register_tracks {kind : EventKind} {c : Value → Program}
    (h : Tracks s (.method (.on kind c) :: up) use) :
    Tracks (act again (.on kind c) s).2 (.method (.on kind c) :: up) use := by
  have hat : AtListeners (.method (.on kind c) :: up) := Or.inr ⟨_, _, rfl, rfl⟩
  refine h.goes _ rfl h.busy ?_ h.fed (fun k => ?_) fun k => ⟨k, ?_⟩
  · simp [act, Tab.register, Tab.tell, h.numbered]
  · exact ⟨.takeListeners hat (h.held _ k), .register rfl rfl rfl h.numbered,
      .giveListeners hat rfl, trivial⟩
  · simp [Standing.after, stands, act, Tab.register, Tab.tell]

theorem unregister_tracks {number : Nat} (h : Tracks s (.method (.off number) :: up) use) :
    Tracks (act again (.off number) s).2 (.method (.off number) :: up) use := by
  have hat : AtListeners (.method (.off number) :: up) := Or.inr ⟨_, _, rfl, rfl⟩
  cases hl : s.outside.listeners.get? (number % Tab.handleBound) with
  | none =>
    refine h.goes [.borrows .listeners, .returns .listeners] ?_ h.busy h.numbered h.fed
      (fun k => ⟨.takeListeners hat (h.held _ k), .giveListeners hat rfl, trivial⟩)
      fun k => ⟨k, ?_⟩
    · simp [act, Tab.unregister, Tab.tell, hl]
    · simp [Standing.after, stands, act, Tab.unregister, Tab.tell, Table.erase_of_get?_none hl]
  | some l =>
    refine h.goes [.borrows .listeners, .removes (number % Tab.handleBound) l,
      .returns .listeners] ?_ h.busy h.numbered h.fed
      (fun k => ⟨.takeListeners hat (h.held _ k), .remove rfl rfl rfl hl, .giveListeners hat rfl,
        trivial⟩) fun k => ⟨k, ?_⟩
    · simp [act, Tab.unregister, Tab.tell, hl]
    · simp [Standing.after, stands, act, Tab.unregister, Tab.tell]

theorem define_tracks {name : String} {m : Method}
    (h : Tracks s (.method (.define name m) :: up) use) :
    Tracks (act again (.define name m) s).2 (.method (.define name m) :: up) use :=
  h.goes [.defines name m] rfl h.busy h.numbered h.fed (fun _ => ⟨.define rfl, trivial⟩)
    fun k => ⟨k, rfl⟩

variable (again) in
theorem act_aside (h : Tracks s (.method op :: up) use) (hask : op.asks = false) :
    Tracks (act again op s).2 (.method op :: up) use ∧
      (act again op s).1 ≠ .error .busy ∧ (act again op s).2.outbox = s.outbox := by
  cases op with
  | on kind callback => exact ⟨register_tracks h, by simp [act], rfl⟩
  | off number => exact ⟨unregister_tracks h, by simp [act], rfl⟩
  | define name m => exact ⟨define_tracks h, by simp [act], rfl⟩
  | retrieve => exact ⟨h, by simp [act], rfl⟩
  | setDom | log | report | remember =>
    exact ⟨h.aside rfl, by simp [act], rfl⟩
  | connect source target =>
    simp only [act, connectEndpoints]
    split
    · exact ⟨h, by simp, rfl⟩
    · next first hfirst =>
      split
      · exact ⟨h, by simp, rfl⟩
      · next second hsecond => simp [Op.asks, hfirst, hsecond] at hask
  | _ => cases hask

variable (ha : Sound again levels) (hl : ¬ InLibrary up)
include ha hl

theorem useBoard_tracks (h : Tracks s (.method op :: up) none)
    {f : Board → Site → Outcome Site α} (hf : Works f (.method op :: up)) (hg : Grown past s) :
    Tracks (useBoard again f s).2 (.method op :: up) none ∧
      Cleared (past.length + levels) (useBoard again f s).2 := by
  have hworked := hf.tracks h.fed (takes_tracks hl h)
  have hused := returns_tracks hl hworked
    (hf.feeds (s := tell { s with busy := true } [.borrows .board]) h.fed)
  have hgrown : Grown past (f s.board (tell { s with busy := true } [.borrows .board])).outside :=
    hf.grown s.board (hg.goes _ rfl)
  simp only [useBoard, Desk.use, h.busy]
  exact ⟨ha.deliver hl hused, ha.clears hl hused (hgrown.goes _ rfl)⟩

theorem work_works {made : Board.Op} (hmade : made.Spares 0 0) :
    Works (fun b s => Board.step (surroundings again) made b
      (s.onOutside fun t => { t.tell [.works b made] with ids := t.ids + 1 }))
      (.method op :: up) where
  feeds := fun hb => hb.step (surroundings again) hmade _
  tracks := fun {b _} hb h => step_tracks ha hl hb made <|
    h.goes [.works b made] rfl h.busy h.numbered h.fed
      (fun k => ⟨.work rfl hl (h.held_some rfl _ k) rfl, trivial⟩) fun k => ⟨k, rfl⟩
  grown := fun b h => step_grown ha.grows (h.goes [.works b made] rfl) made b

theorem work_served (h : Tracks s (.method op :: up) none) (hg : Grown past s) {made : Board.Op}
    (hmade : made.Spares 0 0) :
    Served past levels given (work again made s) (.method op :: up) := by
  obtain ⟨htracks, hclear⟩ := useBoard_tracks ha hl h (work_works ha hl hmade) hg
  refine ⟨htracks, ?_, fun _ => hclear⟩
  obtain ⟨reply, hr⟩ := useBoard_free again h.busy (fun b s =>
    Board.step (surroundings again) made b
      (s.onOutside fun t => { t.tell [.works b made] with ids := t.ids + 1 }))
  simp only [work, hr]
  cases reply <;> simp [answerFor, Except.bind]

theorem look_served (h : Tracks s (.method op :: up) none) (hg : Grown past s)
    (give : Board → α) :
    Tracks (look again give s).2 (.method op :: up) none ∧
      Cleared (past.length + levels) (look again give s).2 ∧
      ∃ a, (look again give s).1 = .ok a := by
  obtain ⟨htracks, hclear⟩ := useBoard_tracks ha hl h (f := fun b s => ⟨give b, b, s⟩)
    ⟨fun hb => hb, fun _ h => h, fun _ h => h⟩ hg
  exact ⟨htracks, hclear, useBoard_free again h.busy _⟩

theorem refreshCanvas_served (h : Tracks s (.method op :: up) none) (hg : Grown past s) :
    Served past levels given (refreshCanvas again s) (.method op :: up) := by
  obtain ⟨hu, hclear, a, hr⟩ := look_served ha hl h hg fun b => b.surface.map (·.selector)
  have hgrown := look_grown ha.grows hg fun b => b.surface.map (·.selector)
  simp only [refreshCanvas]
  generalize look again (fun b => b.surface.map (·.selector)) s = r at hu hclear hr hgrown
  obtain ⟨answer, s'⟩ := r
  obtain rfl : answer = .ok a := hr
  cases a with
  | none => exact ⟨hu, by simp, fun _ => hclear⟩
  | some selector => exact work_served ha hl hu hgrown trivial

theorem act_served (h : Tracks s (.method op :: up) none) (hg : Grown past s) :
    Served past levels (s.outbox = []) (act again op s) (.method op :: up) := by
  by_cases hask : op.asks = true
  · cases op with
    | refreshCanvas => exact refreshCanvas_served ha hl h hg
    | items | isDragging =>
      obtain ⟨hu, hclear, a, hr⟩ := look_served ha hl h hg _
      exact ⟨hu, by simp [act, hr], fun _ => hclear⟩
    | connect source target =>
      obtain ⟨first, second, hfirst, hsecond⟩ := asks_connect hask
      simp only [act, connectEndpoints, hfirst, hsecond]
      exact work_served ha hl h hg trivial
    | on | off | setDom | define | log | report | retrieve | remember => cases hask
    | _ => exact work_served ha hl h hg trivial
  · obtain ⟨ht, hne, hout⟩ := act_aside again h (Bool.eq_false_iff.mpr hask)
    exact ⟨ht, hne, fun hempty => Or.inl (hout.trans hempty)⟩

end Use

section Perform
variable (again : Again) {s : Site} {frames : List Frame}
  {use : Option (List Event)} {op : Op}

theorem act_denied (hb : s.busy = true) (hask : op.asks = true) :
    act again op s = (.error .busy, s.tell [.refuses]) := by
  cases op with
  | connect source target =>
    obtain ⟨first, second, hfirst, hsecond⟩ := asks_connect hask
    simp only [act, connectEndpoints, hfirst, hsecond, work, useBoard_busy hb]
    rfl
  | refreshCanvas | items | isDragging =>
    simp only [act, refreshCanvas, look, useBoard_busy hb]
  | on | off | setDom | define | log | report | retrieve | remember => cases hask
  | _ =>
    simp only [act, initCanvas, work, useBoard_busy hb]
    rfl

theorem act_denied_tracks (hl : InLibrary frames) (hu : use.isSome = true)
    (h : Tracks s (.method op :: frames) use) (hask : op.asks = true) :
    Tracks (act again op s).2 (.method op :: frames) use := by
  rw [act_denied again (h.busy.trans hu) hask]
  exact h.tells (fun k => .refuse rfl hask hl (h.held_some hu _ k)) fun _ => rfl

theorem answers_tracks (h : Tracks s (.method op :: frames) use) {a : Answer}
    (ha : a = .error .busy ↔ op.asks = true ∧ InLibrary frames) :
    Tracks (s.tell [.answers op a]) (frames.modifyHead (.resume a)) use :=
  h.tells (fun _ => .answer rfl ha) fun _ => rfl

section Script
variable {again} {levels : Nat} (ha : Sound again levels)
include ha

theorem script_served {past : List Moment} (hf : InScript frames) (hn : Calls op frames)
    (h : Tracks s frames none) (hg : Grown past s) :
    Served past levels (s.outbox = []) (act again op (tell s [.begins (.method op)]))
      (.method op :: frames) :=
  act_served ha hf.not_inLibrary
    (h.tells (fun k => .call hf hn (h.held_none _ k)) fun _ => rfl) (hg.tell _)

theorem perform_clears {past : List Moment} (hf : InScript frames) (hn : Calls op frames)
    (h : Tracks s frames none) (hg : Grown past s) (hs : s.outbox = []) :
    Cleared (past.length + (levels + 1)) (perform again op s).2 := by
  refine ((script_served ha hf hn h hg).clear hs).imp_right fun hmany => ?_
  simp only [perform, tell, Desk.onOutside, Tab.tell, List.length_append, List.length_cons]
    at hmany ⊢
  omega

theorem perform_tracks (hs : Script frames use) (hn : Calls op frames)
    (h : Tracks s frames use) :
    Tracks (perform again op s).2 (frames.modifyHead (.resume (perform again op s).1))
      use := by
  rcases hs with ⟨hf, rfl⟩ | ⟨hl, hu⟩
  · have hserved := script_served ha hf hn h (List.nil_prefix (l := s.outside.account))
    exact answers_tracks hserved.tracks
      (iff_of_false hserved.answer fun hin => hf.not_inLibrary hin.2)
  -- the library finds the board in use
  · have hbegun : Tracks (tell s [.begins (.method op)]) (.method op :: frames) use :=
      h.tells (fun k => .callInside hl hn (h.held_some hu _ k)) fun _ => rfl
    by_cases hask : op.asks = true
    · have hdenied := act_denied again (hbegun.busy.trans hu) hask
      exact answers_tracks (act_denied_tracks again hl hu hbegun hask)
        (iff_of_true (congrArg Prod.fst hdenied) ⟨hask, hl⟩)
    · obtain ⟨ht, hne, -⟩ := act_aside again hbegun (Bool.eq_false_iff.mpr hask)
      exact answers_tracks ht (iff_of_false hne fun hin => hask hin.1)

end Script

theorem overflow_tracks (hs : Script frames use) (hn : Calls op frames)
    (h : Tracks s frames use) :
    Tracks (tell s [.overflows op]) (frames.modifyHead (.resume (.error .tooDeep))) use :=
  h.tells (fun _ => .overflow (hs.imp And.left And.left) hn) fun _ => rfl

theorem run_sound (levels : Nat) : Sound (run levels) levels := by
  induction levels with
  | zero =>
    exact ⟨fun hs hn h => overflow_tracks hs hn h, fun _ h => h,
      fun _ _ hg => Or.inr hg.length_le, run_grown 0⟩
  | succ levels ih =>
    exact ⟨fun hs hn h => perform_tracks ih hs hn h, fun hl h => deliver_tracks ih hl h,
      fun hl h hg => deliver_clears ih hl h hg, run_grown (levels + 1)⟩

end Perform

section Play
variable {s : Site} (h : Tracks s [] none) (levels : Nat)
include h

theorem play_tracks (script : Program) : Tracks (execute (run levels) script s).2 [] none := by
  obtain ⟨-, -, ht⟩ := execute_tracks (run_sound levels) runs_page script h
  exact ht

theorem run_clears (hs : s.outbox = []) (op : Op) : Cleared levels (run levels (.op op) s).2 := by
  cases levels with
  | zero => exact Or.inl hs
  | succ levels =>
    refine (perform_clears (run_sound levels) (Or.inl rfl) ?_ h List.nil_prefix hs).imp_right
      fun hmany => ?_
    · exact fun f hf => nomatch hf
    · exact Nat.le_trans (Nat.le_add_left _ _) hmany

theorem play_clears (hs : s.outbox = []) (script : Program) :
    Cleared levels (execute (run levels) script s).2 := by
  fun_induction execute (run levels) script s with
  | case1 v s => exact Or.inl hs
  | case2 v s => exact Or.inl hs
  | case3 op next s answer s' hop ih =>
    have ht : Tracks (run levels (.op op) s).2 [] none :=
      (run_sound levels).op (Or.inl ⟨Or.inl rfl, rfl⟩) (runs_page.calls op next) h
    have hclear := run_clears h levels hs op
    rw [hop] at ht hclear
    rcases hclear with hclear | hmany
    · exact ih ht hclear
    · refine Or.inr (Nat.le_trans hmany ?_)
      exact (execute_grown (run_grown levels) List.prefix_rfl _).length_le

end Play

theorem new_tracks {settings : String} {dom : Dom} {console : Log.Console} {s : Site}
    (h : Site.new settings (Tab.new dom console) = .ok s) :
    Tracks s [] none ∧ s.outbox = [] := by
  simp only [Site.new] at h
  split at h
  · cases h
  · split at h
    · cases h
    · split at h
      · cases h
      · split at h
        · cases h
        · next b hb =>
          obtain rfl := Except.ok.inj h
          exact ⟨⟨.nil, rfl, ⟨0, rfl⟩, rfl, Board.new_feeds hb _⟩, rfl⟩

def accountOf (settings : String) (t : Tab) (levels : Nat) (script : Program) :
    Except Refusal (List Moment) :=
  (Site.new settings t).map fun s => (execute (run levels) script s).2.outside.account

section AccountOf
variable {settings : String} {dom : Dom} {console : Log.Console} {levels : Nat} {script : Program}
  {ms : List Moment} (h : accountOf settings (Tab.new dom console) levels script = .ok ms)
include h

theorem accountOf_play : ∃ s, Tracks s [] none ∧ s.outbox = [] ∧
    (execute (run levels) script s).2.outside.account = ms := by
  rw [accountOf] at h
  cases hnew : Site.new settings (Tab.new dom console) with
  | error r =>
    rw [hnew] at h
    cases h
  | ok s =>
    rw [hnew] at h
    obtain ⟨ht, hs⟩ := new_tracks hnew
    exact ⟨s, ht, hs, Except.ok.inj h⟩

theorem accountOf_kept : Kept ms ∧ (standing ms).frames = [] ∧ (standing ms).due = [] := by
  obtain ⟨s, hs, -, rfl⟩ := accountOf_play h
  have ht := play_tracks hs levels script
  obtain ⟨k, hk⟩ := ht.standing
  exact ⟨ht.kept, congrArg Standing.frames hk, congrArg Standing.due hk⟩

/-- Where there are more levels than moments, no event is left waiting. -/
theorem accountOf_clear (hl : ms.length < levels) : (standing ms).queue = [] := by
  obtain ⟨s, hs, hempty, rfl⟩ := accountOf_play h
  obtain ⟨k, hk⟩ := (play_tracks hs levels script).standing
  rw [hk]
  exact (play_clears hs levels hempty script).resolve_right (Nat.not_le_of_lt hl)

end AccountOf

end Site

def sheet : Dom :=
  { Dom.empty with
    nodes :=
      [⟨.styled, "LI", "", ["palette-item"], [], some "Step", ⟨0, 0, 0, 0⟩, none⟩,
        ⟨.styled, "DIV", "canvas", [], [], none, ⟨0, 0, 800, 600⟩, none⟩]
    selections := [(".palette-item", some [0]), ("#canvas", some [1])] }

def setup : List Op :=
  [.define "setContainer" (.function fun _ => .returns .undefined),
    .initPalette ".palette-item" "#canvas", .initCanvas "#canvas"]

end DiagramEditor.Browser
