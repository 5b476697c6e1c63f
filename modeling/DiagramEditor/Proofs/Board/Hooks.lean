import DiagramEditor.Proofs.Board.Events

/-! Drag hooks along a run. They are told when a drag of a template starts and when it stops, and
what they are told stands in pairs although the template is looked up anew at the end of the drag,
in a palette that may have changed meanwhile. -/
namespace DiagramEditor

open Wiring (Fallible)

inductive HookCall
  | started (t : Template)
  | stopped (t : Template) (dropped : Bool)

def Signal.hookCall? : Signal → Option (String × HookCall)
  | .note (.dragStarted hooks t) => some (hooks, .started t)
  | .note (.dragStopped hooks t dropped) => some (hooks, .stopped t dropped)
  | _ => none

def Signal.heard (gs : List Signal) : List (String × HookCall) := gs.filterMap hookCall?

theorem Signal.heard_append (gs hs : List Signal) : heard (gs ++ hs) = heard gs ++ heard hs :=
  List.filterMap_append

/-- Every stop comes right after a start of the same kind. -/
def HookCall.Paired (calls : List HookCall) : Prop :=
  ∀ past t dropped future, calls = past ++ .stopped t dropped :: future →
    ∃ before y, past = before ++ [.started y] ∧ y.kind = t.kind

theorem HookCall.paired_concat {calls : List HookCall} {c : HookCall} :
    Paired (calls ++ [c]) ↔ Paired calls ∧ ∀ x dropped, c = .stopped x dropped →
      ∃ before y, calls = before ++ [.started y] ∧ y.kind = x.kind := by
  constructor
  · intro h
    refine ⟨fun past x dropped future hc => ?_, fun x dropped hc => ?_⟩
    · exact h past x dropped (future ++ [c]) (by rw [hc]; simp)
    · exact h calls x dropped [] (by rw [hc])
  · intro h
    obtain ⟨hcalls, hlast⟩ := h
    intro past x dropped future hc
    rcases List.eq_nil_or_concat future with rfl | ⟨future, d, rfl⟩
    · obtain ⟨rfl, he⟩ := List.append_inj' hc rfl
      exact hlast x dropped (List.singleton_inj.mp he)
    · rw [List.concat_eq_append, ← List.cons_append, ← List.append_assoc] at hc
      exact hcalls past x dropped future (List.append_inj' hc rfl).1

open Signal

namespace Board

def Turn.heard (t : Turn) : List (String × HookCall) := Signal.heard t.signals

/-- What a turn tells the hooks in use, also those that do nothing with it. -/
def Turn.hookCalls (t : Turn) : List HookCall :=
  match t.op, t.before.gesture with
  | .start (.template kind) _, _ => (t.before.template? kind).toList.map .started
  | .stop _, .template kind _ =>
    (t.before.template? kind).toList.map (.stopped · (!t.bulletins.isEmpty))
  | _, _ => []

def Turn.Turns (t : Turn) : Prop := t.op.isStart = true ∨ t.op.isStop = true

def unheard (settings : Settings) : Conduct where
  settings := settings
  sends _ g := g.hookCall? = none
  attaches _ _ := True

theorem template?_kind {b : Board} {kind : String} {t : Template}
    (h : b.template? kind = some t) : t.kind = kind := by
  obtain ⟨p, -, hp⟩ := Option.bind_eq_some_iff.mp h
  have hfound : (t.kind == kind) = true :=
    List.find?_some (p := fun t : Template => t.kind == kind) hp
  exact eq_of_beq hfound

section Signals
variable {σ : Type} (w : Surroundings σ) (b : Board) (s : Recorded σ)

theorem heard_concat (gs : List Signal) {g : Signal} (h : g.hookCall? = none) :
    heard (gs ++ [g]) = heard gs := by
  simp [heard, h]

theorem Trail.heard {r : Conduct}
    (hr : ∀ d n, r.sends d (.note n) → (Signal.note n).hookCall? = none)
    {x y : Document × Recorded σ} (h : Trail w.recorded r x y) :
    Signal.heard y.2.signals = Signal.heard x.2.signals := by
  have hc : ∀ {c answer} {s s' : Recorded σ}, w.recorded.call c s = (answer, s') →
      Signal.heard s.signals = Signal.heard x.2.signals →
        Signal.heard s'.signals = Signal.heard x.2.signals := by
    intro c answer s s' he hs
    rw [(Surroundings.recorded_call he).2, heard_concat s.signals rfl, hs]
  refine h.keeps (P := fun z => Signal.heard z.2.signals = Signal.heard x.2.signals)
    (fun he hx => ?_) rfl
  cases he with
  | noted n hs => exact (heard_concat _ (hr _ n hs)).trans hx
  | refused _ he => exact hc he hx
  | told _ _ he => exact hc he hx
  | resized _ _ => exact hx
  | enabled _ _ he => exact hc he hx
  | placed _ he => exact hc he hx
  | slipped _ he => exact hc he hx
  | inserted _ _ _ _ => exact hx
  | removed _ _ he => exact hc he hx
  | attached _ _ _ he => exact hc he hx

theorem unheard_heard {settings : Settings} {x y : Document × Recorded σ}
    (h : Trail w.recorded (unheard settings) x y) :
    Signal.heard y.2.signals = Signal.heard x.2.signals :=
  h.heard w fun _ _ hn => hn

theorem place_heard (id : ItemId) (p : Point) :
    heard (place w.recorded id p b s).2.signals = heard s.signals := by
  have htrail : Trail w.recorded (unheard b.settings) (b.document, s)
      ((place w.recorded id p b s).1.document, (place w.recorded id p b s).2) :=
    place_trail w.recorded (fun _ _ => rfl) (fun _ => rfl) s
  exact unheard_heard w htrail

theorem abandon_heard :
    heard (abandon w.recorded b s).outside.signals = heard s.signals := by
  cases hg : b.gesture with
  | idle => simp only [abandon, hg]
  | ignored => simp only [abandon, hg]
  | template kind last =>
    simp only [abandon, hg]
    exact heard_concat s.signals rfl
  | item id grab start =>
    simp only [abandon, hg]
    exact (place_heard w _ _ id start).trans (heard_concat s.signals rfl)

theorem startItem_heard (id : ItemId) (page : Point) :
    heard (startItem w.recorded id page b s).outside.signals = heard s.signals := by
  simp only [startItem]
  repeat' split
  all_goals exact heard_concat s.signals rfl

theorem startTemplate_heard (kind : String) (page : Point) :
    heard (startTemplate w.recorded kind page b s).outside.signals = heard s.signals ++
      b.hooks.toList.flatMap fun h => ((b.template? kind).toList.map .started).map (Prod.mk h) := by
  simp only [startTemplate]
  split
  · next ht =>
    have hnone : (b.hooks.toList.flatMap fun h =>
        ((none : Option Template).toList.map HookCall.started).map (Prod.mk h)) = [] :=
      List.flatMap_eq_nil_iff.mpr fun _ _ => rfl
    rw [ht, hnone, List.append_nil]
    exact heard_concat s.signals rfl
  · next t ht =>
    cases hh : b.hooks with
    | none => simp [hh, ht, noteStart, heard, Surroundings.log, Surroundings.recorded, hookCall?]
    | some h => simp [hh, ht, noteStart, heard, Surroundings.log, Surroundings.recorded, hookCall?]

theorem dropTemplate_heard (kind : String) (page : Point) :
    heard (dropTemplate w.recorded kind page b s).2.signals = heard s.signals := by
  have htrail : Trail w.recorded (unheard b.settings) (b.document, s) _ :=
    dropTemplate_trail w.recorded b s (fun _ _ => rfl) (fun _ _ => rfl) kind page
  exact unheard_heard w htrail

theorem stopItem_heard (id : ItemId) (grab start page : Point) :
    heard (stopItem w.recorded id grab start page b s).outside.signals = heard s.signals := by
  have htrail : Trail w.recorded (unheard b.settings) (b.document, s) _ :=
    stopItem_trail w.recorded b s (fun _ _ => rfl) id (fun _ _ _ => rfl) (fun _ _ _ _ _ => rfl)
      grab start page
  exact unheard_heard w htrail

theorem stopTemplate_signals (kind : String) (page : Point) :
    let o := dropTemplate w.recorded kind page b s
    (stopTemplate w.recorded kind page b s).outside.signals = o.2.signals ++
      b.hooks.toList.flatMap fun h => (b.template? kind).toList.map fun t =>
        .note (.dragStopped h t o.1) := by
  intro o
  simp only [stopTemplate]
  split
  · next ht => simp [o, ht]
  · next t ht =>
    cases hh : b.hooks with
    | none => simp [o, hh, ht, noteStop]
    | some h => simp [o, hh, ht, noteStop, Surroundings.recorded]

theorem step_heard {op : Op} (h : ¬ (op.isStart = true ∨ op.isStop = true)) :
    heard (step w.recorded op b s).outside.signals = heard s.signals := by
  refine (step_trail w.recorded b s op).heard w fun d n hn => ?_
  cases op with
  | start source page => exact absurd (Or.inl rfl) h
  | stop page => exact absurd (Or.inr rfl) h
  | _ =>
    cases n with
    | log e => rfl
    | _ => exact hn.elim

end Signals

section Turn
variable {σ : Type} (w : Surroundings σ) (b : Board) (s : σ)

theorem stop_signals {kind : String} {last : Point} (hg : b.gesture = .template kind last)
    (page : Point) :
    let t := (turn w (.stop page) b s).reply
    ∃ gs, Signal.heard gs = [] ∧ Signal.bulletins gs = t.bulletins ∧
      t.signals = gs ++ b.hooks.toList.flatMap fun h => (b.template? kind).toList.map fun x =>
        .note (.dragStopped h x (!t.bulletins.isEmpty)) := by
  intro t
  let idle := { b with gesture := .idle }
  let drop := dropTemplate w.recorded kind page idle ⟨s, []⟩
  have ht : t.signals = (stopTemplate w.recorded kind page idle ⟨s, []⟩).outside.signals := by
    simp only [t, idle, turn, step, answer, stopDrag, hg]
  have hbulletins : t.bulletins = Signal.bulletins drop.2.signals := by
    rw [Turn.bulletins, ht]
    exact stopTemplate_bulletins w idle ⟨s, []⟩ kind page
  have hdropped : drop.1 = !t.bulletins.isEmpty := by
    rcases dropTemplate_cases w idle ⟨s, []⟩ kind page with
      ⟨v, -, hdropped, hout⟩ | ⟨-, hdropped, hout⟩
    · exact hdropped.trans (by rw [hbulletins, hout]; rfl)
    · exact hdropped.trans (by rw [hbulletins, hout]; rfl)
  refine ⟨drop.2.signals, dropTemplate_heard w idle ⟨s, []⟩ kind page, hbulletins.symm, ?_⟩
  rw [ht, ← hdropped]
  exact stopTemplate_signals w idle ⟨s, []⟩ kind page

theorem turn_heard (op : Op) :
    let t := (turn w op b s).reply
    t.heard = b.hooks.toList.flatMap fun h => t.hookCalls.map (Prod.mk h) := by
  intro t
  have hquiet : t.heard = [] → t.hookCalls = [] →
      t.heard = b.hooks.toList.flatMap fun h => t.hookCalls.map (Prod.mk h) := by
    intro hheard hcalls
    rw [hheard, hcalls]
    exact (List.flatMap_eq_nil_iff.mpr fun _ _ => rfl).symm
  have hother : ¬ (op.isStart = true ∨ op.isStop = true) → t.heard = [] :=
    step_heard w b ⟨s, []⟩
  cases op with
  | start source page =>
    have habandon := abandon_heard w b ⟨s, []⟩
    obtain ⟨d, g, hboard⟩ := abandon_frame w.recorded b ⟨s, []⟩
    cases source with
    | foreign => exact hquiet habandon rfl
    | item id => exact hquiet ((startItem_heard w _ _ id page).trans habandon) rfl
    | template kind =>
      have hstart := startTemplate_heard w (abandon w.recorded b ⟨s, []⟩).board
        (abandon w.recorded b ⟨s, []⟩).outside kind page
      have hhooks : (abandon w.recorded b ⟨s, []⟩).board.hooks = b.hooks := by rw [hboard]
      have hpalette : (abandon w.recorded b ⟨s, []⟩).board.template? kind = b.template? kind := by
        rw [hboard]
        rfl
      rw [habandon, hhooks, hpalette] at hstart
      exact hstart
  | stop page =>
    cases hg : b.gesture with
    | template kind last =>
      obtain ⟨gs, hgs, -, ht⟩ := stop_signals w b s hg page
      have hcalls : t.hookCalls =
          (b.template? kind).toList.map (.stopped · (!t.bulletins.isEmpty)) := by
        simp only [t, Turn.hookCalls, turn, hg]
      rw [Turn.heard, ht, Signal.heard_append, hgs, hcalls]
      cases b.hooks with
      | none => rfl
      | some h => cases b.template? kind <;> rfl
    | item id grab start =>
      have hcalls : t.hookCalls = [] := by simp only [t, Turn.hookCalls, turn, hg]
      refine hquiet ?_ hcalls
      have hstop := stopItem_heard w { b with gesture := .idle } ⟨s, []⟩ id grab start page
      simp only [t, Turn.heard, turn, step, answer, stopDrag, hg]
      exact hstop
    | _ =>
      refine hquiet ?_ ?_
      · simp only [t, Turn.heard, turn, step, answer, stopDrag, hg]
        rfl
      · simp only [t, Turn.hookCalls, turn, hg]
  | _ => exact hquiet (hother (by simp [Op.isStart, Op.isStop])) rfl

theorem mem_hookCalls_stopped {t : Turn} {x : Template} {dropped : Bool}
    (h : .stopped x dropped ∈ t.hookCalls) :
    ∃ page kind last, t.op = .stop page ∧ t.before.gesture = .template kind last ∧
      t.before.template? kind = some x ∧ dropped = !t.bulletins.isEmpty := by
  rw [Turn.hookCalls] at h
  split at h
  · next kind page hop =>
    obtain ⟨y, -, hy⟩ := List.mem_map.mp h
    cases hy
  · next page kind last hop hg =>
    obtain ⟨y, hmem, hy⟩ := List.mem_map.mp h
    obtain ⟨rfl, rfl⟩ := HookCall.stopped.inj hy
    exact ⟨page, kind, last, hop, hg, Option.mem_toList.mp hmem, rfl⟩
  · exact absurd h List.not_mem_nil

theorem turn_dropped (op : Op) {x : Template} {dropped : Bool} :
    let t := (turn w op b s).reply
    .stopped x dropped ∈ t.hookCalls → op.isStop = true ∧
      (dropped = true ↔ ∃ p, t.bulletins = Placement.bulletin b.placements p) := by
  intro t h
  obtain ⟨page, kind, last, hop, hg, -, hdropped⟩ := mem_hookCalls_stopped h
  obtain rfl : op = .stop page := hop
  refine ⟨rfl, ?_⟩
  rw [hdropped]
  rcases turn_bulletins w (.stop page) b s with
    ⟨page', kind', last', v, -, -, -, hpub⟩ | ⟨page', id, grab, start, p, -, hg', -⟩ |
      ⟨-, -, hpub⟩
  · exact iff_of_true (by rw [hpub]; rfl) ⟨_, hpub⟩
  · cases hg.symm.trans hg'
  · refine iff_of_false (by rw [hpub]; exact Bool.false_ne_true) ?_
    intro hp
    obtain ⟨p, hp⟩ := hp
    cases hpub.symm.trans hp

theorem turn_published (op : Op) {gs rest : List Signal} {h : String} {x : Template}
    {dropped : Bool} :
    let t := (turn w op b s).reply
    t.signals = gs ++ .note (.dragStopped h x dropped) :: rest →
    rest = [] ∧ Signal.bulletins gs = t.bulletins := by
  intro t ht
  have hheard : (h, HookCall.stopped x dropped) ∈ t.heard := by
    simp [Turn.heard, ht, Signal.heard, hookCall?]
  rw [turn_heard w b s op] at hheard
  obtain ⟨h', hh, hheard⟩ := List.mem_flatMap.mp hheard
  obtain ⟨c, hc, hpair⟩ := List.mem_map.mp hheard
  obtain ⟨rfl, rfl⟩ := Prod.mk.inj hpair
  obtain ⟨page, kind, last, hop, hg, hx, hdropped⟩ := mem_hookCalls_stopped hc
  obtain rfl : op = .stop page := hop
  obtain ⟨before, hbefore, hpublic, hsignals⟩ := stop_signals w b s hg page
  have hx : b.template? kind = some x := hx
  have hsplit : gs ++ .note (.dragStopped h' x dropped) :: rest =
      before ++ [.note (.dragStopped h' x (!t.bulletins.isEmpty))] := by
    rw [← ht, hsignals, hx, Option.mem_toList.mp hh]
    rfl
  rcases List.eq_nil_or_concat rest with rfl | ⟨rest, g, rfl⟩
  · obtain ⟨rfl, -⟩ := List.append_inj' hsplit rfl
    exact ⟨rfl, hpublic⟩
  · -- otherwise the hooks were told already before the end of the turn
    rw [List.concat_eq_append, ← List.cons_append, ← List.append_assoc] at hsplit
    obtain ⟨rfl, -⟩ := List.append_inj' hsplit rfl
    simp [Signal.heard, hookCall?] at hbefore

theorem startDrag_template {source : DragSource} {page : Point} {kind : String} {last : Point}
    {s : σ} (h : (startDrag w source page b s).board.gesture = .template kind last) :
    ∃ t, b.template? kind = some t := by
  obtain ⟨d, g, hboard⟩ := abandon_frame w b s
  rcases startFresh_cases w (abandon w b s).board (abandon w b s).outside source page with
    ⟨other, t, -, ht, -, hb⟩ | ⟨id, v, i, -, -, -, -, -, hb⟩ | ⟨-, hb⟩
  · simp only [startDrag, hb] at h
    obtain ⟨rfl, -⟩ := Gesture.template.inj h
    rw [hboard] at ht
    exact ⟨t, ht⟩
  · simp only [startDrag, hb] at h
    cases h
  · simp only [startDrag, hb] at h
    cases h

theorem turn_template {op : Op} {kind : String} {last : Point}
    (h : (turn w op b s).board.gesture = .template kind last) :
    (∃ page t, op = .start (.template kind) page ∧ b.template? kind = some t) ∨
      ((∃ page, b.gesture = .template kind page) ∧ ¬ (turn w op b s).reply.Turns) := by
  have hsource : (step w.recorded op b ⟨s, []⟩).board.gesture.source? =
      some (.template kind) := (congrArg Gesture.source? h).trans rfl
  rcases step_source w.recorded b ⟨s, []⟩ hsource with ⟨page, rfl⟩ | ⟨hg, hop⟩
  · obtain ⟨t, ht⟩ := startDrag_template w.recorded b h
    exact Or.inl ⟨page, t, rfl, ht⟩
  · refine Or.inr ⟨?_, hop⟩
    cases hgesture : b.gesture with
    | template other page =>
      rw [hgesture] at hg
      obtain rfl := DragSource.template.inj (Option.some.inj hg)
      exact ⟨page, rfl⟩
    | _ =>
      rw [hgesture] at hg
      cases hg

theorem turn_template_stays {op : Op} {kind : String} {last : Point}
    (hg : b.gesture = .template kind last) (hop : ¬ (turn w op b s).reply.Turns) :
    ∃ page, (turn w op b s).board.gesture = .template kind page := by
  cases op with
  | start source page => exact absurd (Or.inl rfl) hop
  | move page => exact ⟨page, by simp only [turn, step, answer, moveDrag, hg]⟩
  | stop page => exact absurd (Or.inr rfl) hop
  | _ =>
    refine ⟨last, ?_⟩
    simp only [turn]
    rw [(step_keeps w.recorded b ⟨s, []⟩ _).gesture rfl, hg]

/-- Nothing is told to the hooks: no drag of a template starts, and none ends that the palette still
has a template for. -/
structure Turn.Untold (t : Turn) : Prop where
  calls : t.hookCalls = []
  kept : ∀ kind last, t.after.gesture = .template kind last →
    (∃ page, t.before.gesture = .template kind page) ∧ ¬ t.Turns
  gone : ∀ kind last, t.op.isStop = true → t.before.gesture = .template kind last →
    t.before.template? kind = none

theorem turn_calls (op : Op) :
    let t := (turn w op b s).reply
    (∃ x page, t.hookCalls = [.started x] ∧ op.isStart = true ∧
      t.after.gesture = .template x.kind page) ∨
    (∃ x dropped last, t.hookCalls = [.stopped x dropped] ∧ op.isStop = true ∧
      b.gesture = .template x.kind last ∧ b.template? x.kind = some x ∧
      t.after.gesture = .idle) ∨
    t.Untold := by
  intro t
  have hquiet : t.hookCalls = [] → (op.isStop = true → ∀ kind last,
      b.gesture = .template kind last → b.template? kind = none) → t.Untold := by
    intro hcalls hstop
    refine ⟨hcalls, fun kind last hg => ?_, fun kind last hop => hstop hop kind last⟩
    rcases turn_template w b s hg with ⟨page, x, rfl, hx⟩ | hkept
    · simp [t, Turn.hookCalls, turn, hx] at hcalls
    · exact hkept
  have hother : t.hookCalls = [] → op.isStop = false → t.Untold :=
    fun hcalls hop => hquiet hcalls fun h => absurd (hop.symm.trans h) Bool.false_ne_true
  cases op with
  | start source page =>
    cases source with
    | template kind =>
      obtain ⟨d, g, hboard⟩ := abandon_frame w.recorded b ⟨s, []⟩
      cases hx : b.template? kind with
      | none =>
        refine Or.inr (Or.inr (hother ?_ rfl))
        simp [t, Turn.hookCalls, turn, hx]
      | some x =>
        have hfound : (abandon w.recorded b ⟨s, []⟩).board.template? kind = some x := by
          rw [hboard]
          exact hx
        refine Or.inl ⟨x, page, by simp [t, Turn.hookCalls, turn, hx], rfl, ?_⟩
        rw [template?_kind hx]
        simp only [t, turn, step, answer, startDrag, startFresh, startTemplate, hfound]
    | _ => exact Or.inr (Or.inr (hother rfl rfl))
  | stop page =>
    have hidle : t.after.gesture = .idle := stopDrag_idle w.recorded b _ page
    cases hg : b.gesture with
    | template kind last =>
      cases hx : b.template? kind with
      | none =>
        refine Or.inr (Or.inr (hquiet ?_ fun _ other last' hg' => ?_))
        · simp [t, Turn.hookCalls, turn, hg, hx]
        · obtain ⟨rfl, -⟩ := Gesture.template.inj (hg.symm.trans hg')
          exact hx
      | some x =>
        have hkind := template?_kind hx
        refine Or.inr (Or.inl ⟨x, !t.bulletins.isEmpty, last, ?_, rfl, ?_, ?_, hidle⟩)
        · simp only [t, Turn.hookCalls, turn, hg, hx]
          rfl
        · rw [hkind]
        · rw [hkind, hx]
    | _ =>
      refine Or.inr (Or.inr (hquiet ?_ fun _ kind last hg' => ?_))
      · simp only [t, Turn.hookCalls, turn, hg]
      · cases hg.symm.trans hg'
  | _ => exact Or.inr (Or.inr (hother rfl rfl))

theorem turn_started {op : Op} {x : Template}
    (h : (turn w op b s).reply.hookCalls = [.started x]) :
    ∃ page, (turn w op b s).board.gesture = .template x.kind page := by
  rcases turn_calls w b s op with
    ⟨y, page, ht, -, hg⟩ | ⟨y, dropped, last, ht, -⟩ | ht
  · obtain rfl := HookCall.started.inj (List.singleton_inj.mp (h.symm.trans ht))
    exact ⟨page, hg⟩
  · cases h.symm.trans ht
  · cases h.symm.trans ht.calls

theorem Turn.turns_not_stopped_iff {t : Turn} {kind : String} :
    (t.Turns ∧ ¬ (t.op.isStop = true ∧ ∃ y, t.before.template? kind = some y)) ↔
      t.op.isStart = true ∨ (t.op.isStop = true ∧ t.before.template? kind = none) := by
  have hstart : t.op.isStart = true → ¬ t.op.isStop = true := by
    cases t.op with
    | start source page => exact fun _ => Bool.false_ne_true
    | _ => exact fun h => absurd h Bool.false_ne_true
  rw [Option.eq_none_iff_forall_ne_some, Turn.Turns]
  constructor
  · rintro ⟨hop | hop, hnot⟩
    · exact Or.inl hop
    · exact Or.inr ⟨hop, fun y hy => hnot ⟨hop, y, hy⟩⟩
  · rintro (hop | ⟨hop, hnone⟩)
    · exact ⟨Or.inl hop, fun h => hstart hop h.1⟩
    · exact ⟨Or.inr hop, fun h => h.2.elim hnone⟩

end Turn

def hookCalls (ts : List Turn) : List HookCall := ts.flatMap Turn.hookCalls

section Run
variable {σ : Type} (w : Surroundings σ) {b : Board} (s : σ) (ops : List Op)

/-- While a template is dragged, the last that the hooks were told is that its drag has started. -/
theorem run_paired (hb : ∀ kind last, b.gesture ≠ .template kind last) :
    let o := run w ops b s
    HookCall.Paired (hookCalls o.reply) ∧ ∀ kind last, o.board.gesture = .template kind last →
      ∃ before y, hookCalls o.reply = before ++ [.started y] ∧ y.kind = kind := by
  refine run_induction (P := fun _ o => HookCall.Paired (hookCalls o.reply) ∧
    ∀ kind last, o.board.gesture = .template kind last →
      ∃ before y, hookCalls o.reply = before ++ [.started y] ∧ y.kind = kind) ?_ ?_ ops
  · refine ⟨fun past t dropped future h => ?_, fun kind last hg => absurd hg (hb kind last)⟩
    simp [hookCalls] at h
  · intro ops op ih
    obtain ⟨hpaired, hlast⟩ := ih
    have hcalls : hookCalls (extend w (run w ops b s) op).reply = hookCalls (run w ops b s).reply ++
        (turn w op (run w ops b s).board (run w ops b s).outside).reply.hookCalls := by
      simp [hookCalls, extend]
    rw [hcalls]
    rcases turn_calls w (run w ops b s).board (run w ops b s).outside op with
      ⟨x, page, ht, -, hg⟩ | ⟨x, dropped, last, ht, -, hg, -, hafter⟩ | ht
    · rw [ht]
      refine ⟨HookCall.paired_concat.mpr ⟨hpaired, fun y dropped h => ?_⟩, ?_⟩
      · cases h
      · intro kind last hg'
        obtain ⟨rfl, -⟩ := Gesture.template.inj (hg.symm.trans hg')
        exact ⟨_, x, rfl, rfl⟩
    · rw [ht]
      refine ⟨HookCall.paired_concat.mpr ⟨hpaired, fun y _ h => ?_⟩, ?_⟩
      · obtain ⟨rfl, -⟩ := HookCall.stopped.inj h
        exact hlast _ last hg
      · intro kind last' hg'
        cases hafter.symm.trans hg'
    · rw [ht.calls, List.append_nil]
      refine ⟨hpaired, fun kind last hg => ?_⟩
      obtain ⟨page, hbefore⟩ := (ht.kept kind last hg).1
      exact hlast kind page hbefore

theorem run_not_stopped (hb : ∀ kind last, b.gesture ≠ .template kind last) :
    ¬ ∃ y dropped rest, hookCalls (run w ops b s).reply = .stopped y dropped :: rest := by
  intro h
  obtain ⟨y, dropped, rest, h⟩ := h
  obtain ⟨before, x, hx, -⟩ := (run_paired w s ops hb).1 [] y dropped rest h
  simp at hx

theorem run_template_stays {kind : String} {last : Point} (hg : b.gesture = .template kind last)
    (hquiet : ∀ u ∈ (run w ops b s).reply, ¬ u.Turns) :
    ∃ page, (run w ops b s).board.gesture = .template kind page := by
  induction ops generalizing b s last with
  | nil => exact ⟨last, hg⟩
  | cons op ops ih =>
    rw [run_cons] at hquiet ⊢
    obtain ⟨ht, hrest⟩ := List.forall_mem_cons.mp hquiet
    obtain ⟨page, hpage⟩ := turn_template_stays w b s hg ht
    exact ih _ hpage hrest

theorem run_stopped_iff {kind : String} {last : Point} (hg : b.gesture = .template kind last) :
    (∃ y dropped rest, hookCalls (run w ops b s).reply = .stopped y dropped :: rest) ↔
      Next (fun u => u.op.isStop = true ∧ ∃ y, u.before.template? kind = some y) Turn.Turns
        (run w ops b s).reply := by
  induction ops generalizing b s last with
  | nil => simp [run, hookCalls, not_next_nil]
  | cons op ops ih =>
    simp only [run_cons, next_cons, hookCalls, List.flatMap_cons]
    rcases turn_calls w b s op with
      ⟨x, page, ht, hop, -⟩ | ⟨x, dropped, last', ht, hop, hg', hx, -⟩ | ht
    · have hstop : op.isStop = false := by
        cases op with
        | start source page => rfl
        | _ => cases hop
      refine iff_of_false (by simp [ht]) ?_
      simp [Turn.Turns, turn, hop, hstop]
    · obtain ⟨rfl, -⟩ := Gesture.template.inj (hg.symm.trans hg')
      refine iff_of_true ?_ (Or.inl ⟨hop, x, hx⟩)
      simp [ht]
    · rw [ht.calls, List.nil_append]
      by_cases hturns : (turn w op b s).reply.Turns
      · have hb : ∀ kind last, (turn w op b s).board.gesture ≠ .template kind last :=
          fun kind last hafter => (ht.kept kind last hafter).2 hturns
        refine iff_of_false (run_not_stopped w _ ops hb) ?_
        rintro (⟨hop, y, hy⟩ | ⟨hnot, -⟩)
        · cases hy.symm.trans (ht.gone kind last hop hg)
        · exact hnot hturns
      · obtain ⟨page, hpage⟩ := turn_template_stays w b s hg hturns
        refine (ih _ hpage).trans ⟨fun h => Or.inr ⟨hturns, h⟩, ?_⟩
        rintro (⟨hop, -⟩ | ⟨-, h⟩)
        · exact absurd (Or.inr hop) hturns
        · exact h

end Run

/-- What drag hooks are told along a run stands in pairs: a stop comes right after the start of its
kind, and a start without a stop belongs to a drag that goes on, that another drag cut off, or that
was released when the palette had no template of its kind. A drag counts as dropped just when its
turn published a placement, which happens before the hooks are told. -/
theorem hooks_paired {σ : Type} {settings : Settings} {b : Board}
    (hb : Board.new settings = .ok b) (w : Surroundings σ) (s : σ) (ops : List Op) :
    let o := run w ops b s
    (∀ t ∈ o.reply,
      t.heard = t.before.hooks.toList.flatMap fun h => t.hookCalls.map (Prod.mk h)) ∧
    (∀ past x dropped future, hookCalls o.reply = past ++ .stopped x dropped :: future →
      ∃ before y, past = before ++ [.started y] ∧ y.kind = x.kind) ∧
    (∀ t ∈ o.reply, ∀ x dropped, .stopped x dropped ∈ t.hookCalls → t.op.isStop = true ∧
      (dropped = true ↔ ∃ p, t.bulletins = Placement.bulletin t.before.placements p)) ∧
    (∀ t ∈ o.reply, ∀ gs h x dropped rest,
      t.signals = gs ++ .note (.dragStopped h x dropped) :: rest →
      rest = [] ∧ Signal.bulletins gs = t.bulletins) ∧
    ∀ past t future x, o.reply = past ++ t :: future → t.hookCalls = [.started x] →
      ((¬ ∃ y dropped rest, hookCalls future = .stopped y dropped :: rest) ↔
        ((∀ u ∈ future, ¬ u.Turns) ∧ ∃ last, o.board.gesture = .template x.kind last) ∨
        Next (fun u => u.op.isStart = true ∨
          (u.op.isStop = true ∧ u.before.template? x.kind = none)) Turn.Turns future) := by
  intro o
  have hidle : b.gesture = .idle := (new_ok hb).2.2.2.1
  have hnone : ∀ kind last, b.gesture ≠ .template kind last := by
    intro kind last hg
    cases hidle.symm.trans hg
  refine ⟨?_, (run_paired w s ops hnone).1, ?_, ?_, ?_⟩
  · intro t ht
    obtain ⟨xs, op, ys, -, rfl⟩ := run_mem ht
    exact turn_heard w _ _ op
  · intro t ht x dropped hstopped
    obtain ⟨xs, op, ys, -, rfl⟩ := run_mem ht
    exact turn_dropped w _ _ op hstopped
  · intro t ht gs h x dropped rest hsignals
    obtain ⟨xs, op, ys, -, rfl⟩ := run_mem ht
    exact turn_published w _ _ op hsignals
  · intro past t future x h hstarted
    obtain ⟨xs, op, ys, -, -, rfl, rfl, hboard⟩ := run_split h
    obtain ⟨page, hg⟩ := turn_started w _ _ hstarted
    have hturns : ∀ u : Turn, (u.op.isStop = true ∧ ∃ y, u.before.template? x.kind = some y) →
        u.Turns := fun u hu => Or.inr hu.1
    rw [run_stopped_iff w _ ys hg, not_next_iff hturns]
    simp only [Turn.turns_not_stopped_iff]
    refine or_congr ⟨fun hquiet => ⟨hquiet, ?_⟩, fun h => h.1⟩ Iff.rfl
    rw [← hboard]
    exact run_template_stays w _ ys hg hquiet

/-- The palette is read again while a template is dragged, and the new hooks are told of the end. -/
theorem hooks_paired_past_new_palette :
    let ops : List Op :=
      [.initPalette shelf "#palette" "#canvas", .initCanvas shelf "#canvas", .setHooks "first",
        .start (.template "Step") ⟨1, 2⟩, .initPalette shelf "#steps" "#canvas",
        .setHooks "second", .stop ⟨800, 600⟩]
    let o := run (Fallible.surroundings fun _ => none) ops standard .start
    ∃ t, o.reply[6]? = some t ∧ t.heard = [("second", .stopped ⟨"Step", ""⟩ true)] ∧
      ∃ before y, hookCalls (o.reply.take 6) = before ++ [.started y] ∧ y.kind = "Step" := by
  intro ops o
  obtain ⟨hheard, hpairs, -⟩ :=
    hooks_paired new_standard (Fallible.surroundings fun _ => none) .start ops
  refine ⟨o.reply.get ⟨6, by decide⟩, rfl, ?_, ?_⟩
  · rw [hheard _ (List.get_mem _ _)]
    rfl
  · exact hpairs (hookCalls (o.reply.take 6)) ⟨"Step", ""⟩ true [] rfl

end Board

end DiagramEditor
