import DiagramEditor.Proofs.Board.Canvas

/-! A registration of the canvas that succeeds makes the library in memory the mirror of the
document, whatever earlier failures left behind; then every source can be connected to every
target. -/
namespace DiagramEditor

open Wiring (Connection Memory Fallible)

theorem Settings.style_limit {settings : Settings} (h : settings.problem? = none) (role : Role) :
    (settings.style role).limit ≠ some 0 := by
  have hs := (of_problem?_none h).2 role
  simp only [styleProblem?] at hs
  split at hs
  · cases hs
  · split at hs
    · cases hs
    · split at hs
      · cases hs
      · next hl => exact hl

namespace Wiring

theorem Fallible.call_of_none {plan : Nat → Option Fault} {s : Fallible} (h : plan s.made = none)
    {c : Call} {m : Memory} (hc : Memory.call c s.memory = (.ok (), m)) :
    call plan c s = (.ok (), ⟨m, s.made + 1⟩) := by
  simp only [call, h, hc]

theorem Memory.isFull_eq_false {m : Memory} {e : Endpoint} (hc : m.connections = [])
    (hl : e.style.limit ≠ some 0) : m.isFull e = false := by
  rw [isFull, connectionCount, hc]
  cases h : e.style.limit with
  | none => rfl
  | some limit =>
    have hne : limit ≠ 0 := fun h0 => hl (h0 ▸ h)
    simpa using hne

theorem Memory.call_connect_mirror {d : Document} (hn : d.Distinct) {container : Option String}
    {box : Size} (id : ConnectionId) {s t : Endpoint} (hs : s ∈ d.endpoints) (ht : t ∈ d.endpoints)
    (hsr : s.role = .source) (htr : t.role = .target) (hsl : s.style.limit ≠ some 0)
    (htl : t.style.limit ≠ some 0) :
    call (.connect id s t) (mirror container box d.items) =
      (.ok (), { mirror container box d.items with connections := [⟨id, s.id, t.id⟩] }) := by
  have hfs : (mirror container box d.items).isFull s = false := isFull_eq_false rfl hsl
  have hft : (mirror container box d.items).isFull t = false := isFull_eq_false rfl htl
  simp only [call, connect, mirror_get?_endpoints hn hs, mirror_get?_endpoints hn ht, hsr, htr, hfs,
    hft]
  rfl

end Wiring

namespace Board

theorem connect_attached {σ : Type} {w : Surroundings σ} {b : Board} {u u' : σ}
    (hn : b.document.Distinct) (id : ConnectionId) {s t : Endpoint} (hs : s ∈ b.document.endpoints)
    (ht : t ∈ b.document.endpoints) (hsr : s.role = .source) (htr : t.role = .target)
    (hc : w.call (.connect id s t) u = (.ok (), u')) :
    step w (.connect id s.id t.id) b u =
      ⟨.named id, b, w.log (Entries.connectionRequested id s.item t.item) u'⟩ := by
  simp only [step, answer, connect, Document.endpoint?_of_mem hn hs,
    Document.endpoint?_of_mem hn ht]
  rw [if_neg (by simp [hsr, htr])]
  simp only [hc, Reply.ofExcept]

theorem initCanvas_again {σ : Type} (w : Surroundings σ) {b : Board} {page : Page}
    {selector : String} {container : Element} {rest : List Element}
    (hp : page selector = .ok (container :: rest))
    (hv : b.surface = some ⟨selector, container.rect⟩) (s : σ) :
    (step w (.initCanvas page selector) b s).board = b := by
  rcases initCanvas_reply w page selector b s with ⟨r, hr⟩ | ⟨f, hr⟩
  · obtain ⟨other, rest', s', e, hp', rfl, -, hstep⟩ := initCanvas_ok hr
    rw [hp] at hp'
    obtain ⟨rfl, -⟩ := List.cons.inj (Except.ok.inj hp')
    rw [hstep, ← hv]
  · exact initCanvas_board hr

/-- A canvas that is registered puts right whatever went wrong before. -/
theorem registration_renews {settings : Settings} {b : Board} (hb : Board.new settings = .ok b)
    (plan : Nat → Option Fault) (ops : List Op) (hf : Fresh ops) (page : Page) (selector : String)
    (r : Rect) :
    let w := Fallible.surroundings plan
    let o := run w ops b .start
    let after := step w (.initCanvas page selector) o.board o.outside
    let items := o.board.document.items
    after.reply = .bounds r →
      (∃ container rest, page selector = .ok (container :: rest) ∧ container.rect = r ∧
        after.outside.memory =
          { container := some (container.id.getD container.tag)
            draggables := (items.filter (·.draggable)).map fun i => (i.id, r.size)
            positions := (items.filter (·.draggable)).map fun i => (i.id, i.position)
            endpoints := (items.flatMap (·.endpoints)).map fun e => (e.id, e)
            connections := [] }) ∧
      after.board = { o.board with surface := some ⟨selector, r⟩ } ∧
      (∀ plan',
        let again := step (Fallible.surroundings plan') (.initCanvas page selector) after.board
          after.outside
        again.board = after.board ∧
          (∀ r', again.reply = .bounds r' → r' = r ∧ again.outside.memory = after.outside.memory) ∧
          ((∀ n, plan' n = none) → again.reply = .bounds r)) ∧
      ∀ id, ∀ s ∈ o.board.document.endpoints, ∀ t ∈ o.board.document.endpoints,
        s.role = .source → t.role = .target → plan after.outside.made = none →
          let joined := step w (.connect id s.id t.id) after.board after.outside
          joined.reply = .named id ∧ joined.board = after.board ∧
            joined.outside.memory =
              { after.outside.memory with connections := [⟨id, s.id, t.id⟩] } := by
  intro w o after items hr
  obtain ⟨hset, ho⟩ := run_orderly hb w ops .start
  have hn : o.board.document.Distinct := ho.distinct hf
  obtain ⟨container, rest, hp, rfl, hboard, hm⟩ :=
    initCanvas_bounds (Fallible.fronts plan) ho.sound hn hr
  have ha : after.board = { o.board with surface := some ⟨selector, container.rect⟩ } := hboard
  have hd : after.board.document = o.board.document := by rw [ha]
  have hv : after.board.surface = some ⟨selector, container.rect⟩ := by rw [ha]
  have hs' : after.board.document.Sound := hd ▸ ho.sound
  have hn' : after.board.document.Distinct := hd ▸ hn
  refine ⟨⟨container, rest, hp, rfl, hm⟩, ha, fun plan' => ⟨?_, ?_, ?_⟩, ?_⟩
  · exact initCanvas_again _ hp hv _
  · intro r' hr'
    obtain ⟨other, rest', hp', rfl, -, hm'⟩ :=
      initCanvas_bounds (Fallible.fronts plan') hs' hn' hr'
    rw [hp] at hp'
    obtain ⟨rfl, -⟩ := List.cons.inj (Except.ok.inj hp')
    exact ⟨rfl, by rw [hm', hd]; exact hm.symm⟩
  · exact fun hplan => initCanvas_carries (Fallible.carries hplan) hp _ _
  · intro id s hs t ht hsr htr hmade
    have hlimit : ∀ e ∈ o.board.document.endpoints, e.style.limit ≠ some 0 := by
      intro e he
      rw [ho.styled e he, hset]
      exact Settings.style_limit (new_ok hb).1 e.role
    have hc : Memory.call (.connect id s t) after.outside.memory = (.ok (), _) :=
      hm ▸ Memory.call_connect_mirror hn id hs ht hsr htr (hlimit s hs) (hlimit t ht)
    have hcall := Fallible.call_of_none hmade hc
    have hstep := connect_attached (w := w) hn' id (hd ▸ hs) (hd ▸ ht) hsr htr hcall
    exact ⟨by rw [hstep], by rw [hstep], by rw [hstep]; rfl⟩

/-- A registration that broke off leaves the library without the endpoints; the next one brings them
back, and they can be connected. -/
theorem registration_renews_after_failure :
    let plan : Nat → Option Fault := fun n => if n = 3 then some .canvasNotInitialized else none
    let w := Fallible.surroundings plan
    let ops : List Op :=
      [.append "Step" ⟨10, 20⟩, .attach ⟨1⟩ ⟨"canvasItem0"⟩ .source,
        .attach ⟨2⟩ ⟨"canvasItem0"⟩ .target, .initCanvas sheet "#canvas"]
    let o := run w ops standard .start
    let after := step w (.initCanvas sheet "#canvas") o.board o.outside
    Fresh ops ∧ o.outside.memory.endpoints.length = 0 ∧ after.reply = .bounds ⟨0, 0, 800, 600⟩ ∧
      after.outside.memory.endpoints.map (·.1) = [⟨1⟩, ⟨2⟩] ∧
      (step w (.connect ⟨3⟩ ⟨1⟩ ⟨2⟩) after.board after.outside).reply = .named ⟨3⟩ := by
  intro plan w ops o after
  have hr : after.reply = .bounds ⟨0, 0, 800, 600⟩ := rfl
  have hmade : after.outside.made = 7 := by decide
  obtain ⟨s, hs, hsid, hsr⟩ : ∃ s ∈ o.board.document.endpoints, s.id = ⟨1⟩ ∧ s.role = .source := by
    decide
  obtain ⟨t, ht, htid, htr⟩ : ∃ t ∈ o.board.document.endpoints, t.id = ⟨2⟩ ∧ t.role = .target := by
    decide
  have hrenews :=
    registration_renews new_standard plan ops (by decide) sheet "#canvas" ⟨0, 0, 800, 600⟩
  obtain ⟨-, -, -, hconnect⟩ := hrenews (by simpa only [after, o, w] using hr)
  have hjoined := hconnect ⟨3⟩ s hs t ht hsr htr (by
    simp only [after, o, w] at hmade
    rw [hmade]
    rfl)
  rw [hsid, htid] at hjoined
  exact ⟨by decide, by decide, hr, by decide, by simpa only [after, o, w] using hjoined.1⟩

end Board

end DiagramEditor
