import DiagramEditor.Proofs.Wiring.Connections

/-! Along every run in front of a library in memory that may turn any call down, connections are
legal, and a request that could not be legal does not reach the library. -/
namespace DiagramEditor.Board

open Wiring (Memory Fallible)

theorem legal_new {settings : Settings} {b : Board} (hb : Board.new settings = .ok b) :
    Memory.empty.Legal b.document := by
  rw [(new_ok hb).2.2.1]
  refine ⟨Memory.within_empty _, List.nodup_nil, fun c hc => ?_, fun e he => ?_⟩
  · exact absurd hc List.not_mem_nil
  · exact absurd he List.not_mem_nil

theorem run_legal {σ : Type} {w : Surroundings σ} {memory : σ → Memory} (hw : w.Fronts memory)
    {settings : Settings} {b : Board} (hb : Board.new settings = .ok b) {s : σ}
    (h : (memory s).Legal b.document) {ops : List Op} (hf : Fresh ops) :
    (memory (run w ops b s).outside).Legal (run w ops b s).board.document := by
  refine run_induction (P := fun ops o => Fresh ops → (memory o.outside).Legal o.board.document)
    (fun _ => h) ?_ ops hf
  intro ops op ih hf
  have ho := (run_orderly hb w ops s).2
  have hn : (endpointIds ops ++ op.endpointId?.toList).Nodup := endpointIds_concat ops op ▸ hf
  exact step_upheld (Memory.legal_upheld (ho.attaches_fresh hn)) hw.recorded ho.sound
    (ih (List.nodup_append.mp hn).1)

theorem connect_refused {σ : Type} (w : Surroundings σ) (id : ConnectionId)
    {source target : EndpointId} {b : Board} (s : σ)
    (h : ∀ first ∈ b.document.endpoints, ∀ second ∈ b.document.endpoints, first.id = source →
      second.id = target → ¬ (first.role = .source ∧ second.role = .target)) :
    ∃ f, step w (.connect id source target) b s = ⟨.refused f, b, s⟩ := by
  simp only [step, answer, connect]
  cases hs : b.document.endpoint? source with
  | none => exact ⟨_, rfl⟩
  | some first =>
    cases ht : b.document.endpoint? target with
    | none => exact ⟨_, rfl⟩
    | some second =>
      obtain ⟨hfirst, hsid⟩ := Document.endpoint?_some hs
      obtain ⟨hsecond, htid⟩ := Document.endpoint?_some ht
      have hr : first.role ≠ .source ∨ second.role ≠ .target :=
        not_and_or.mp (h first hfirst second hsecond hsid htid)
      simp only [if_pos hr]
      exact ⟨_, rfl⟩

/-- Connections are always legal, and requests for others have no effect at all. -/
theorem connections_legal {settings : Settings} {b : Board} (hb : Board.new settings = .ok b)
    (plan : Nat → Option Fault) (ops : List Op) (hf : Fresh ops) :
    let w := Fallible.surroundings plan
    let o := run w ops b .start
    let m := o.outside.memory
    let d := o.board.document
    (∀ c ∈ m.connections, ∃ s ∈ d.endpoints, ∃ t ∈ d.endpoints,
      (s.id = c.source ∧ s.role = .source ∧ m.endpoints.get? c.source = some s) ∧
        t.id = c.target ∧ t.role = .target ∧ m.endpoints.get? c.target = some t) ∧
    (∀ e ∈ d.endpoints, ∀ n, e.style.limit = some n →
      (m.connections.countP fun c => c.source = e.id ∨ c.target = e.id) ≤ n) ∧
    ∀ id source target,
      (¬ ∃ s ∈ d.endpoints, ∃ t ∈ d.endpoints,
        (s.id = source ∧ s.role = .source) ∧ t.id = target ∧ t.role = .target) →
      let u := turn w (.connect id source target) o.board o.outside
      u.reply.signals = [] ∧ (∃ f, u.reply.reply = .refused f) ∧ u.board = o.board ∧
        u.outside = o.outside := by
  intro w o m d
  have hl : m.Legal d := run_legal (Fallible.fronts plan) hb (legal_new hb) hf
  refine ⟨?_, ?_, ?_⟩
  · intro c hc
    obtain ⟨s, t, hs, ht, hsr, htr⟩ := hl.linked c hc
    obtain ⟨hsid, hsd⟩ := hl.held hs
    obtain ⟨htid, htd⟩ := hl.held ht
    exact ⟨s, hsd, t, htd, ⟨hsid.symm, hsr, hs⟩, htid.symm, htr, ht⟩
  · intro e he n hn
    have hcount := hl.limited e he n hn
    simpa [Memory.connectionCount, Wiring.Connection.touches, beq_eq_decide] using hcount
  · intro id source target hne u
    have hno : ∀ s ∈ d.endpoints, ∀ t ∈ d.endpoints, s.id = source → t.id = target →
        ¬ (s.role = .source ∧ t.role = .target) := fun s hs t ht hsid htid hr =>
      hne ⟨s, hs, t, ht, ⟨hsid, hr.1⟩, htid, hr.2⟩
    obtain ⟨f, h⟩ := connect_refused w.recorded id ⟨o.outside, []⟩ hno
    have hu : u = ⟨⟨.connect id source target, o.board, .refused f, [], o.board⟩, o.board,
        o.outside⟩ := by
      simp only [u, turn, h]
    rw [hu]
    exact ⟨rfl, ⟨f, rfl⟩, rfl, rfl⟩

def frugal : Settings := { sourceStyle := { Style.source with limit := some 1 } }

theorem new_frugal : Board.new frugal = .ok { standard with settings := frugal } := rfl

/-- A source that takes one connection has one after a second request, and it cannot be a target. -/
theorem connections_legal_up_to_limit :
    let ops : List Op :=
      [.initCanvas sheet "#canvas", .append "Step" ⟨10, 20⟩, .append "Step" ⟨300, 20⟩,
        .attach ⟨1⟩ ⟨"canvasItem0"⟩ .source, .attach ⟨2⟩ ⟨"canvasItem1"⟩ .target,
        .connect ⟨3⟩ ⟨1⟩ ⟨2⟩, .connect ⟨4⟩ ⟨1⟩ ⟨2⟩]
    let w := Fallible.surroundings fun _ => none
    let o := run w ops { standard with settings := frugal } .start
    Fresh ops ∧ o.outside.memory.connections = [⟨⟨3⟩, ⟨1⟩, ⟨2⟩⟩] ∧
      (∀ e ∈ o.board.document.endpoints, ∀ n, e.style.limit = some n →
        (o.outside.memory.connections.countP fun c => c.source = e.id ∨ c.target = e.id) ≤ n) ∧
      (turn w (.connect ⟨5⟩ ⟨2⟩ ⟨1⟩) o.board o.outside).reply.signals = [] := by
  intro ops w o
  have hlegal := connections_legal new_frugal (fun _ => none) ops (by decide)
  have hconnections : o.outside.memory.connections = [⟨⟨3⟩, ⟨1⟩, ⟨2⟩⟩] := by decide
  refine ⟨by decide, hconnections, ?_, ?_⟩
  · simpa only [o, w] using hlegal.2.1
  · simpa only [o, w] using (hlegal.2.2 ⟨5⟩ ⟨2⟩ ⟨1⟩ (by decide)).1

end DiagramEditor.Board
