import DiagramEditor.Proofs.Desk.HandOut

/-! Whatever is done at a bench is a session at its desk, in which the events are published and
handed out of which the replies tell. -/
namespace DiagramEditor.Desk

open Bench (Result)

def benchSurroundings : Surroundings Bench := ⟨Bench.call, Bench.note⟩

/-- The queue was the first to subscribe, so that other subscriptions have higher numbers. -/
structure Fed (b : Board) : Prop where
  feeds : b.Feeds 0 0
  placements : 0 < b.placements.next
  moves : 0 < b.moves.next

structure Ready (d : Desk Bench) (stages : List Stage) : Prop where
  listeners : ∀ id ∈ d.outside.subscriptions, id ≠ 0
  free : d.busy = false → Fed d.board
  used : ∀ b, .uses b ∈ stages → Fed b

/-- From one place a session may come to another, while these events are published and handed
out. -/
def Leads (d : Desk Bench) (stages : List Stage) (hs : List Happening) (d' : Desk Bench)
    (stages' : List Stage) : Prop :=
  Ready d stages → Ready d' stages' ∧ ∀ published handed,
    Session benchSurroundings 0 0 ⟨d, stages, published, handed⟩
      ⟨d', stages', published ++ hs.filterMap Happening.published?,
        handed ++ hs.filterMap Happening.handed?⟩

structure Engaged (d : Desk Bench) : Prop where
  busy : d.busy = true
  blank : d.outside.record = {}

theorem Ready.place {settings : Settings} {b : Board} (hb : Board.new settings = .ok b) {s : Bench}
    (hs : s.subscriptions = []) : Ready (place b s) [] where
  listeners := by simp [Desk.place, hs]
  free := fun _ => ⟨Board.new_feeds hb s, Nat.succ_pos _, Nat.succ_pos _⟩
  used := fun _ hb => nomatch hb

theorem Fed.step {b : Board} (h : Fed b) {op : Board.Op} (hs : op.Spares 0 0) (d : Desk Bench) :
    Fed (Board.step Bench.surroundings op b d).board := by
  have hfeeds := h.feeds.step Bench.surroundings hs d
  have hkeeps := Board.step_keeps Bench.surroundings b d op
  cases op with
  | onPlacement who => exact ⟨hfeeds, Nat.succ_pos _, h.moves⟩
  | onMove who => exact ⟨hfeeds, h.placements, Nat.succ_pos _⟩
  | offPlacement id => exact ⟨hfeeds, h.placements, h.moves⟩
  | offMove id => exact ⟨hfeeds, h.placements, h.moves⟩
  | _ => exact ⟨hfeeds, hkeeps.placements rfl ▸ h.placements, hkeeps.moves rfl ▸ h.moves⟩

section Steps
variable {d d' d'' : Desk Bench} {b : Board} {stages stages' stages'' up : List Stage}
  {hs hs' : List Happening}

theorem Ready.push (h : Ready d stages) {g : Stage} (hg : ∀ b, .uses b ≠ g) :
    Ready d (g :: stages) :=
  ⟨h.listeners, h.free, fun b hb => h.used b ((List.mem_cons.mp hb).resolve_left (hg b))⟩

theorem Ready.pop {g : Stage} (h : Ready d (g :: stages)) : Ready d stages :=
  ⟨h.listeners, h.free, fun b hb => h.used b (List.mem_cons_of_mem g hb)⟩

theorem Leads.refl : Leads d stages [] d stages :=
  fun h => ⟨h, fun published handed => by simpa using Relation.ReflTransGen.refl⟩

theorem Leads.trans (h : Leads d stages hs d' stages') (h' : Leads d' stages' hs' d'' stages'') :
    Leads d stages (hs ++ hs') d'' stages'' := by
  intro hr
  obtain ⟨hr', hfirst⟩ := h hr
  obtain ⟨hr'', hsecond⟩ := h' hr'
  refine ⟨hr'', fun published handed => ?_⟩
  simpa only [List.filterMap_append, List.append_assoc] using
    (hfirst published handed).trans (hsecond _ _)

theorem Leads.trans_quiet (h : Leads d stages hs d' stages')
    (h' : Leads d' stages' [] d'' stages'') : Leads d stages hs d'' stages'' :=
  List.append_nil hs ▸ h.trans h'

theorem Leads.of_advance (hr : Ready d stages → Ready d' stages')
    (ha : ∀ published handed, Advance benchSurroundings 0 0 ⟨d, stages, published, handed⟩
      ⟨d', stages', published, handed⟩) : Leads d stages [] d' stages' :=
  fun h => ⟨hr h, fun published handed => by simpa using .single (ha published handed)⟩

theorem leads_take (ho : Scene.Open stages) (hb : d.busy = false) :
    Leads d stages [] { d with busy := true } (.uses d.board :: stages) := by
  refine .of_advance (fun hr => ⟨hr.listeners, fun h => Bool.noConfusion h, fun b hb' => ?_⟩)
    fun _ _ => .take ho hb
  rcases List.mem_cons.mp hb' with hb' | hb'
  · obtain rfl := Stage.uses.inj hb'
    exact hr.free hb
  · exact hr.used b hb'

theorem leads_giveBack :
    Leads d (.uses b :: stages) [] { d with board := b, busy := false } stages :=
  .of_advance (fun hr => ⟨hr.listeners, fun _ => hr.used b List.mem_cons_self,
    fun c hc => hr.used c (List.mem_cons_of_mem _ hc)⟩) fun _ _ => .giveBack

theorem leads_elsewhere (f : Bench → Bench)
    (hf : Ready d stages → ∀ id ∈ (f d.outside).subscriptions, id ≠ 0) :
    Leads d stages [] (d.onOutside f) stages :=
  .of_advance (fun hr => ⟨hf hr, hr.free, hr.used⟩) fun _ _ => .elsewhere f

theorem leads_ask (ho : Scene.Open stages) : Leads d stages [] d (.hands :: stages) :=
  .of_advance (fun hr => hr.push fun _ => Stage.noConfusion) fun _ _ => .ask ho

theorem leads_hand {e : Event} (h : d.pop? = some (e, d')) :
    Leads d (.hands :: up) [.handed e] d' (.reacts :: .hands :: up) := by
  intro hr
  have hadvance : ∀ published handed, Session benchSurroundings 0 0
      ⟨d, .hands :: up, published, handed⟩
      ⟨d', .reacts :: .hands :: up, published, handed ++ [e]⟩ := fun _ _ => .single (.hand h)
  obtain ⟨rest, -, rfl⟩ := pop?_some h
  have htaken : Ready { d with outbox := rest } (.hands :: up) :=
    ⟨hr.listeners, hr.free, hr.used⟩
  refine ⟨htaken.push fun _ => Stage.noConfusion, fun published handed => ?_⟩
  simpa [List.filterMap_cons, Happening.published?, Happening.handed?] using
    hadvance published handed

theorem leads_reacted : Leads d (.reacts :: up) [] d up :=
  .of_advance Ready.pop fun _ _ => .reacted

theorem leads_finish (h : d.pop? = none) : Leads d (.hands :: up) [] d up :=
  .of_advance Ready.pop fun _ _ => .finish h

theorem step_subscriptions (op : Board.Op) (b : Board) (d : Desk Bench) :
    (Board.step Bench.surroundings op b d).outside.outside.subscriptions =
      d.outside.subscriptions := by
  refine (Board.step_trail Bench.surroundings b d op).keeps_outside
    (P := fun s => s.outside.subscriptions = d.outside.subscriptions) ?_ ?_ rfl
  · intro c s hs
    exact hs
  · intro n s hs
    cases n with
    | placement who p => cases who <;> exact hs
    | move who m => cases who <;> exact hs
    | _ => exact hs

/-- The event of an operation, if it has one, is on the record. -/
theorem step_happenings (op : Board.Op) (h : b.Feeds 0 0) (d : Desk Bench) :
    (Board.step Bench.surroundings op b d).outside.outside.record.happenings =
      d.outside.record.happenings ++ (b.event? op).toList.map .published := by
  have hnotes : ∀ (n : Note) (s : Desk Bench),
      (Bench.surroundings.note n s).outside.record.happenings =
        s.outside.record.happenings ++ (Signal.queued [.note n]).map .published := by
    intro n s
    have hrecord : (Bench.surroundings.note n s).outside.record.notes =
        s.outside.record.notes ++ [n] := by
      cases n with
      | placement who p => cases who <;> rfl
      | move who m => cases who <;> rfl
      | _ => rfl
    simp only [Bench.Record.happenings, hrecord, List.map_append, List.map_cons, List.map_nil,
      Signal.queued_append]
  rw [← h.queued_turn Bench.surroundings op d, Board.step_turn]
  refine (Board.step_trail Bench.surroundings.recorded b ⟨d, []⟩ op).keeps_outside
    (P := fun s => s.inner.outside.record.happenings =
      d.outside.record.happenings ++ (Signal.queued s.signals).map .published) ?_ ?_ ?_
  · intro c s hs
    refine Eq.trans ?_ (hs.trans ?_)
    · rfl
    · simp [Surroundings.recorded, Signal.queued, Signal.queued?]
  · intro n s hs
    refine (hnotes n s.inner).trans ?_
    simp only [hs, Surroundings.recorded, Signal.queued_append, List.map_append, List.append_assoc]
  · exact (List.append_nil _).symm

theorem leads_operate (op : Board.Op) (hs : Ready d (.uses b :: stages) → op.Spares 0 0) :
    let o := Board.step Bench.surroundings op b d
    Leads d (.uses b :: stages) ((b.event? op).toList.map .published) o.outside
      (.uses o.board :: stages) := by
  intro o hr
  have hgets : d.Gets o.outside _ := step_gets benchSurroundings op b d
  refine ⟨⟨?_, fun hb => ?_, fun c hc => ?_⟩, fun published handed => ?_⟩
  · exact step_subscriptions op b d ▸ hr.listeners
  · exact hgets.board ▸ hr.free (hgets.busy.symm.trans hb)
  · rcases List.mem_cons.mp hc with hc | hc
    · obtain rfl := Stage.uses.inj hc
      exact (hr.used b List.mem_cons_self).step (hs hr) d
    · exact hr.used c (List.mem_cons_of_mem _ hc)
  · rw [Happening.filterMap_published?, Happening.filterMap_handed?, List.append_nil]
    exact .single (.operate op (hs hr) rfl)

theorem use_busy {α : Type} {f : Board → Desk Bench → Outcome (Desk Bench) α}
    (h : d.busy = true) : d.use f = (none, d) :=
  if_pos h

theorem leads_use {α : Type} {f : Board → Desk Bench → Outcome (Desk Bench) α}
    (tells : α → List Happening) (ho : Scene.Open stages)
    (hf : ∀ b d stages, d.busy = true → let o := f b d
      Leads d (.uses b :: stages) (tells o.reply) o.outside (.uses o.board :: stages)) :
    Leads d stages ((d.use f).1.elim [] tells) (d.use f).2 stages := by
  rw [Desk.use]
  split
  · exact .refl
  · next hb =>
    have hb : d.busy = false := Bool.eq_false_iff.mpr hb
    exact ((leads_take ho hb).trans (hf _ _ _ rfl)).trans_quiet leads_giveBack

theorem Handled.leads {react : Event → Nat → Desk Bench → (List Reply × Nat) × Desk Bench}
    (hlead : ∀ e left d, let r := react e left d
      Leads d (.reacts :: .hands :: up) (replyHappenings r.1.1) r.2 (.reacts :: .hands :: up))
    {budget spent : Nat} {ds : List Delivery} (h : Handled react budget d ds spent d') :
    Leads d (.hands :: up) (deliveryHappenings ds) d' up := by
  induction h with
  | done h => exact leads_finish h
  | @paid left _ e taken _ _ _ _ _ _ h hreact _ ih =>
    have hlead := hlead e left taken
    rw [hreact] at hlead
    exact ((leads_hand h).trans (hlead.trans_quiet leads_reacted)).trans ih
  | unpaid h _ ih => exact ((leads_hand h).trans_quiet leads_reacted).trans ih

theorem Handled.engaged {react : Event → Nat → Desk Bench → (List Reply × Nat) × Desk Bench}
    (hkeep : ∀ e left d, Engaged d → Engaged (react e left d).2) {budget spent : Nat}
    {ds : List Delivery} (h : Handled react budget d ds spent d') (hd : Engaged d) :
    Engaged d' := by
  have hpop : ∀ {d d' : Desk Bench} {e}, d.pop? = some (e, d') → Engaged d → Engaged d' := by
    intro d d' e h hd
    obtain ⟨rest, -, rfl⟩ := pop?_some h
    exact ⟨hd.busy, hd.blank⟩
  induction h with
  | done _ => exact hd
  | @paid left _ e taken _ _ _ _ _ _ h hreact _ ih =>
    have hkept := hkeep e left taken (hpop h hd)
    rw [hreact] at hkept
    exact ih hkept
  | unpaid h _ ih => exact ih (hpop h hd)

end Steps

/-- Whoever uses the board comes to this outcome, which tells of the events meanwhile. -/
structure Brings (b : Board) (d : Desk Bench) (stages : List Stage) (o : Result) : Prop where
  leads : Leads d (.uses b :: stages) (o.outside.outside.record.happenings ++ o.reply.happenings)
    o.outside (.uses o.board :: stages)
  busy : o.outside.busy = true

def Works (f : Board → Desk Bench → Result) : Prop :=
  ∀ b d stages, Engaged d → Brings b d stages (f b d)

section Tasks
variable {b : Board} {d : Desk Bench} {stages up : List Stage}

theorem Brings.of_quiet (hd : Engaged d) (reply : Bench.Reply) (hreply : reply.happenings = []) :
    Brings b d stages ⟨reply, b, d⟩ where
  leads := by
    rw [hd.blank, hreply]
    exact .refl
  busy := hd.busy

theorem Brings.of_perform (op : Board.Op) (hd : Engaged d)
    (hs : Ready d (.uses b :: stages) → op.Spares 0 0) :
    Brings b d stages (Bench.perform op b d) where
  leads := by
    intro hr
    have hrecord := step_happenings op (hr.used b List.mem_cons_self).feeds d
    rw [hd.blank] at hrecord
    have htells : (Bench.perform op b d).outside.outside.record.happenings ++ [] =
        (b.event? op).toList.map .published := (List.append_nil _).trans hrecord
    exact htells ▸ leads_operate op hs hr
  busy := (step_gets benchSurroundings op b d).busy.trans hd.busy

theorem Brings.elsewhere {o : Result} (h : Brings b d stages o) (reply : Bench.Reply)
    (hreply : reply.happenings = o.reply.happenings) (f : Bench → Bench)
    (hrecord : (f o.outside.outside).record = o.outside.outside.record)
    (hf : Ready d (.uses b :: stages) → Ready o.outside (.uses o.board :: stages) →
      ∀ id ∈ (f o.outside.outside).subscriptions, id ≠ 0) :
    Brings b d stages ⟨reply, o.board, o.outside.onOutside f⟩ where
  leads := by
    intro hr
    have hnoted := h.leads.trans_quiet (leads_elsewhere f (hf hr)) hr
    rwa [← hreply, ← hrecord] at hnoted
  busy := h.busy

theorem works_perform (op : Board.Op) (hs : op.Spares 0 0) : Works (Bench.perform op) :=
  fun _ _ _ hd => .of_perform op hd fun _ => hs

theorem works_make (op : Uuid → Board.Op) (hs : ∀ id, (op id).Spares 0 0)
    (list : Uuid → Bench.Named → Bench.Named) : Works (Bench.make op list) := by
  intro b d stages hd
  have htaken : Leads d (.uses b :: stages) [] (d.onOutside fun s => { s with ids := s.ids + 1 })
      (.uses b :: stages) := leads_elsewhere _ fun hr => hr.listeners
  have hmade := works_perform _ (hs d.outside.nextId) b
    (d.onOutside fun s => { s with ids := s.ids + 1 }) stages ⟨hd.busy, hd.blank⟩
  have hbrings : Brings b d stages _ := ⟨htaken.trans hmade.leads, hmade.busy⟩
  rw [Bench.make]
  split
  · exact hbrings.elsewhere _ rfl _ rfl fun _ hr => hr.listeners
  · exact hbrings

theorem works_connect (source target : String) : Works (Bench.connect source target) := by
  intro b d stages hd
  simp only [Bench.connect]
  split
  · exact .of_quiet hd _ rfl
  · next first _ =>
    split
    · exact .of_quiet hd _ rfl
    · next second _ =>
      exact works_make (.connect · first second) (fun _ => trivial) _ b d stages hd

/-- The number of the queue is behind what the buses have counted to. -/
theorem Brings.of_subscribe (op : Board.Op) (hs : op.Spares 0 0) (hd : Engaged d)
    {id number : Nat} (hid : Fed b → 0 < id) :
    let o := Bench.perform op b d
    Brings b d stages ⟨.answer (.ofNat number), o.board,
      o.outside.onOutside fun s => { s with subscriptions := s.subscriptions ++ [id] }⟩ := by
  have hbrings : Brings b d stages (Bench.perform op b d) := .of_perform op hd fun _ => hs
  refine hbrings.elsewhere (.answer _) rfl (fun s => { s with
    subscriptions := s.subscriptions ++ [id] }) rfl fun hr hr' id' hid' => ?_
  rcases List.mem_append.mp hid' with hid' | hid'
  · exact hr'.listeners id' hid'
  · exact List.mem_singleton.mp hid' ▸ Nat.ne_of_gt (hid (hr.used b List.mem_cons_self))

theorem works_subscribe (toPlacements : Bool) : Works (Bench.subscribe toPlacements) := by
  intro b d stages hd
  cases toPlacements with
  | true =>
    exact .of_subscribe (.onPlacement (.listener _)) Subscriber.noConfusion hd Fed.placements
  | false => exact .of_subscribe (.onMove (.listener _)) Subscriber.noConfusion hd Fed.moves

theorem works_unsubscribe (fromPlacements : Bool) (listener : Nat) :
    Works (Bench.unsubscribe fromPlacements listener) := by
  intro b d stages hd
  simp only [Bench.unsubscribe]
  split
  · exact .of_quiet hd _ rfl
  · next id hid =>
    have hne : Ready d (.uses b :: stages) → id ≠ 0 :=
      fun hr => hr.listeners id (List.mem_of_getElem? hid)
    split
    · exact .of_perform (.offPlacement id) hd hne
    · exact .of_perform (.offMove id) hd hne

theorem leads_appendFor (ho : Scene.Open stages) (event : Option Event) :
    Leads d stages (d.appendFor event).1.happenings (d.appendFor event).2 stages ∧
      (Engaged d → Engaged (d.appendFor event).2) := by
  simp only [Desk.appendFor]
  split
  · next p =>
    have hused := leads_use (d := d) (f := Board.appendItem Bench.surroundings p.kind p.position)
      (fun _ => []) ho fun _ _ _ _ => leads_operate (.append p.kind p.position) fun _ => trivial
    have hclear : ∀ d : Desk Bench, Leads d stages [] (d.onOutside Bench.clearRecord) stages :=
      fun _ => leads_elsewhere _ fun hr => hr.listeners
    refine ⟨?_, fun hd => ?_⟩
    · cases hreply : (d.use (Board.appendItem Bench.surroundings p.kind p.position)).1 with
      | none => exact (hreply ▸ hused).trans_quiet (hclear _)
      | some id => exact (hreply ▸ hused).trans_quiet (hclear _)
    · rw [use_busy hd.busy]
      exact ⟨hd.busy, rfl⟩
  · exact ⟨.refl, id⟩

theorem open_uses (b : Board) (stages : List Stage) : Scene.Open (.uses b :: stages) :=
  fun _ h => Stage.noConfusion (List.cons.inj h).1

theorem open_reacts (stages : List Stage) : Scene.Open (.reacts :: stages) :=
  fun _ h => Stage.noConfusion (List.cons.inj h).1

mutual

theorem task_works : ∀ t : Bench.Task, Works t.run
  | .page elements render => fun b _ _ hd =>
    (Brings.of_quiet hd .nothing rfl).elsewhere .nothing rfl (fun s => { s with
      page := elements ++ if render then Bench.renderedItems b else [] }) rfl
        fun _ hr => hr.listeners
  | .initPalette selector canvas => fun b d stages =>
    works_perform (.initPalette (Bench.currentPage d) selector canvas) trivial b d stages
  | .initCanvas selector => fun b d stages =>
    works_perform (.initCanvas (Bench.currentPage d) selector) trivial b d stages
  | .enable selector => fun b d stages =>
    works_perform (.enable (Bench.currentPage d) selector) trivial b d stages
  | .setBounds r => works_perform (.setBounds r) trivial
  | .append kind p => works_perform (.append kind p) trivial
  | .insert i kind p => works_perform (.insert i kind p) trivial
  | .remove id => works_perform (.remove id) trivial
  | .attach item role => works_make (.attach · item role) (fun _ => trivial)
    fun id n => { n with endpoints := n.endpoints ++ [id] }
  | .connect source target => fun b d stages =>
    works_connect (source d.outside.named) (target d.outside.named) b d stages
  | .start source p => works_perform (.start source p) trivial
  | .move p => works_perform (.move p) trivial
  | .stop p => works_perform (.stop p) trivial
  | .subscribe toPlacements => works_subscribe toPlacements
  | .unsubscribe fromPlacements n => works_unsubscribe fromPlacements n
  | .setHooks tag => works_perform (.setHooks tag) trivial
  | .arm failure => fun _ _ _ hd =>
    (Brings.of_quiet hd .nothing rfl).elsewhere .nothing rfl (fun s => { s with
      library := { s.library with arms := s.library.arms ++ [failure] } }) rfl
        fun _ hr => hr.listeners
  | .ask _ => fun _ _ _ hd => .of_quiet hd _ rfl
  | .desk task => fun b d stages hd => by
    obtain ⟨hlead, hkeep⟩ := desk_task_leads (d := d) task none 0 (open_uses b stages)
    refine ⟨?_, (hkeep hd).busy⟩
    have hblank : (task.run none 0 d).2.outside.record = {} := (hkeep hd).blank
    simp only [Bench.Task.run, hblank]
    exact hlead
  | .nothing => fun _ _ _ hd => .of_quiet hd _ rfl

theorem tasks_lead : ∀ (ts : List Bench.Task) (b : Board) (d : Desk Bench) (stages : List Stage),
    d.busy = true → let o := Bench.runAll ts b d
      Leads d (.uses b :: stages) (Bench.entryHappenings o.reply) o.outside
        (.uses o.board :: stages)
  | [], _, _, _, _ => .refl
  | t :: rest, b, d, stages, hb => by
    have hclear : Leads d (.uses b :: stages) [] (d.onOutside Bench.clearRecord)
        (.uses b :: stages) := leads_elsewhere _ fun hr => hr.listeners
    have hbrings := task_works t b (d.onOutside Bench.clearRecord) stages ⟨hb, rfl⟩
    exact (hclear.trans hbrings.leads).trans (tasks_lead rest _ _ stages hbrings.busy)

theorem desk_task_leads {d : Desk Bench} {stages : List Stage} : ∀ (t : Desk.Task)
    (event : Option Event) (budget : Nat), Scene.Open stages →
      let r := t.run event budget d
      Leads d stages r.1.1.happenings r.2 stages ∧ (Engaged d → Engaged r.2)
  | .use tasks, _, _, ho => by
    have hused := leads_use (d := d) Bench.entryHappenings ho (tasks_lead tasks)
    refine ⟨?_, fun hd => ?_⟩
    · simp only [Desk.Task.run]
      split
      · next hreply => rwa [hreply] at hused
      · next es hreply => rwa [hreply] at hused
    · simp only [Desk.Task.run, use_busy hd.busy]
      exact hd
  | .pending, _, _, _ => ⟨.refl, id⟩
  | .handOut, _, _, ho => by
    have hhanded := handOutAll_handled (fun _ _ d => (([], 0), d)) d
    exact ⟨(leads_ask ho).trans (hhanded.leads fun _ _ _ => .refl),
      hhanded.engaged fun _ _ _ => id⟩
  | .handOutTo reaction own, _, budget, ho => by
    have hhanded := handOutPaid_handled (fun e left d =>
      Desk.runAll reaction (some e) left d) (Nat.le_refl (own.getD budget)) d
    refine ⟨(leads_ask ho).trans (hhanded.leads fun e left d => ?_),
      hhanded.engaged fun e left d => ?_⟩
    · exact (desk_tasks_lead reaction (some e) left (open_reacts _)).1
    · exact (desk_tasks_lead reaction (some e) left (open_reacts [])).2
  | .appendEvent, event, _, ho => leads_appendFor ho event
  | .nothing, _, _, _ => ⟨.refl, id⟩

theorem desk_tasks_lead {d : Desk Bench} {stages : List Stage} : ∀ (ts : List Desk.Task)
    (event : Option Event) (budget : Nat), Scene.Open stages →
      let r := Desk.runAll ts event budget d
      Leads d stages (replyHappenings r.1.1) r.2 stages ∧ (Engaged d → Engaged r.2)
  | [], _, _, _ => ⟨.refl, id⟩
  | t :: rest, event, budget, ho => by
    obtain ⟨hlead, hkeep⟩ := desk_task_leads (d := d) t event budget ho
    obtain ⟨hrest, hkept⟩ := desk_tasks_lead (d := (t.run event budget d).2) rest event
      (budget - (t.run event budget d).1.2) ho
    exact ⟨hlead.trans hrest, fun hd => hkept (hkeep hd)⟩

end

end Tasks

theorem open_nil : Scene.Open [] := fun _ h => nomatch h

/-- In a session what has been handed out, and what waits after it, is what has been published, each
event once and in order, and whoever stops handing out leaves nothing that waits. An operation tells
its subscribers of the event that it publishes and of no other. Whatever is done at a bench is such
a session, in which the events are published and handed out of which the replies tell. A hand-out at
a bench gives every event to the reaction, as long as the budget lasts, and leaves nothing that
waits. -/
theorem session_keeps_events {σ : Type} (w : Surroundings σ) {b : Board} {s : σ} {sc : Scene σ}
    (hp : .outbox ∉ b.placements.audience) (hm : .outbox ∉ b.moves.audience)
    (h : Session w b.placements.next b.moves.next (.start (place b s)) sc) :
    sc.handed ++ sc.desk.outbox = sc.published ∧
    (∀ sc', Advance w b.placements.next b.moves.next sc sc' →
      sc.stages = .hands :: sc'.stages → sc'.desk.outbox = []) ∧
    (∀ op (b : Board) d, (Board.turn (surroundings w) op b d).reply.bulletins =
      (b.event? op).elim [] b.bulletin) ∧
    (∀ {settings : Settings} {b : Board} {bench : Bench}, Board.new settings = .ok b →
      bench.subscriptions = [] → ∀ tasks event budget,
        let r := Desk.runAll tasks event budget (place b bench)
        ∃ sc : Scene Bench,
          Session benchSurroundings b.placements.next b.moves.next (.start (place b bench)) sc ∧
            sc.stages = [] ∧ sc.desk = r.2 ∧
              sc.published = (replyHappenings r.1.1).filterMap Happening.published? ∧
              sc.handed = (replyHappenings r.1.1).filterMap Happening.handed?) ∧
    ∀ reaction own event budget (d : Desk Bench),
      let r := (Task.handOutTo reaction own).run event budget d
      (∃ deliveries spent, r.1.1 = .handed deliveries ∧
        Handled (fun e left d => Desk.runAll reaction (some e) left d) (own.getD budget) d
          deliveries spent r.2) ∧
      r.2.outbox = [] ∧ (Task.handOut.run event budget d).2.outbox = [] := by
  refine ⟨(h.sound (Scene.sound_start hp hm s)).events, fun sc' ha => ha.outbox_of_finish,
    fun op b d => Board.turn_event (surroundings w) op b d, ?_, ?_⟩
  · intro settings b bench hb hs tasks event budget r
    obtain ⟨-, hlead⟩ := (desk_tasks_lead tasks event budget open_nil).1 (Ready.place hb hs)
    obtain ⟨hplacements, hmoves⟩ := Board.new_unsubscribed hb
    rw [hplacements, hmoves]
    exact ⟨_, hlead [] [], rfl, rfl, rfl, rfl⟩
  · intro reaction own event budget d r
    have hhanded := handOutPaid_handled (fun e left d =>
      Desk.runAll reaction (some e) left d) (Nat.le_refl (own.getD budget)) d
    exact ⟨⟨_, _, rfl, hhanded⟩, hhanded.outbox, rfl⟩

/-- A template is dropped on the canvas, and the placement is handed out. -/
theorem session_keeps_events_of_drop :
    ∃ sc, Session benchSurroundings 0 0 (.start (place Board.standard .empty)) sc ∧
      sc.published = [.placement ⟨"Step", ⟨10, 20⟩⟩] ∧ sc.desk.outbox = [] ∧
      sc.handed ++ sc.desk.outbox = sc.published := by
  have h : Session benchSurroundings 0 0 (.start (place Board.standard .empty)) _ :=
    .head (.take open_nil rfl) <|
    .head (.operate (.initPalette Board.shelf "#palette" "#canvas") trivial rfl) <|
    .head (.operate (.initCanvas Board.shelf "#canvas") trivial rfl) <|
    .head (.operate (.start (.template "Step") ⟨1, 2⟩) trivial rfl) <|
    .head (.operate (.stop ⟨10, 20⟩) trivial rfl) <|
    .head .giveBack <| .head (.ask open_nil) <| .single (.hand rfl)
  have hnone : .outbox ∉ Board.standard.placements.audience := List.not_mem_nil
  have hnone' : .outbox ∉ Board.standard.moves.audience := List.not_mem_nil
  exact ⟨_, h, rfl, rfl, (session_keeps_events _ hnone hnone' h).1⟩

end DiagramEditor.Desk
