import DiagramEditor.Bench.Task
/-!
Runs the tasks of a bench. Replies come with the budget that is left.
-/
namespace DiagramEditor

namespace Bench

abbrev Result := Outcome (Desk Bench) Reply

def perform (op : Board.Op) (b : Board) (d : Desk Bench) : Result :=
  let o := Board.step surroundings op b d
  ⟨.board o.reply, o.board, o.outside⟩

/-- Does an operation that makes something under the next id, which is listed if it was made. -/
def make (op : Uuid → Board.Op) (list : Uuid → Named → Named) (b : Board) (d : Desk Bench) :
    Result :=
  let id := d.outside.nextId
  let o := perform (op id) b (d.onOutside fun s => { s with ids := s.ids + 1 })
  match o.reply with
  | .board (.named id) =>
    { o with outside := o.outside.onOutside fun s => { s with named := list id s.named } }
  | _ => o

def attach (item : ItemId) (role : Role) : Board → Desk Bench → Result :=
  make (.attach · item role) fun id n => { n with endpoints := n.endpoints ++ [id] }

/-- Both texts have to spell ids. -/
def connect (source target : String) (b : Board) (d : Desk Bench) : Result :=
  match Uuid.parse? source with
  | none => ⟨.refused (.invalidEndpointId source), b, d⟩
  | some first =>
    match Uuid.parse? target with
    | none => ⟨.refused (.invalidEndpointId target), b, d⟩
    | some second =>
      make (.connect · first second) (fun id n => { n with connections := n.connections ++ [id] })
        b d

def subscribe (toPlacements : Bool) (b : Board) (d : Desk Bench) : Result :=
  let number := d.outside.subscriptions.length
  let who := Subscriber.listener number
  let o := perform (if toPlacements then .onPlacement who else .onMove who) b d
  match o.reply with
  | .board (.subscribed id) =>
    { reply := .answer (.ofNat number)
      board := o.board
      outside :=
        o.outside.onOutside fun s => { s with subscriptions := s.subscriptions ++ [id] } }
  | _ => o

def unsubscribe (fromPlacements : Bool) (listener : Nat) (b : Board) (d : Desk Bench) : Result :=
  match d.outside.subscriptions[listener]? with
  | none => ⟨.nothing, b, d⟩
  | some id => perform (if fromPlacements then .offPlacement id else .offMove id) b d

def currentPage (d : Desk Bench) : Page := .ofElements d.outside.page

def withRecord (f : Board → Desk Bench → Result) (b : Board) (d : Desk Bench) :
    Outcome (Desk Bench) Entry :=
  let o := f b (d.onOutside clearRecord)
  ⟨.mk o.reply o.outside.outside.record o.board, o.board, o.outside⟩

end Bench

namespace Desk

open Bench (clearRecord)

def handOutAll (d : Desk σ) : List Delivery × Desk σ :=
  let count := d.outbox.length
  (d.outbox.zipIdx.map fun (e, i) => .mk e (count - 1 - i) [], { d with outbox := [] })

/-- Hands out events in order. `react` gets what is left of the budget after the event is paid and
says how much of that it spent itself. -/
def handOutPaid (react : Event → Nat → Desk σ → (List Reply × Nat) × Desk σ) :
    Nat → Nat → Desk σ → (List Delivery × Nat) × Desk σ
  | fuel + 1, budget + 1, d =>
    match d.pop? with
    | none => (([], 0), d)
    | some (e, d) =>
      let ((replies, spent), d) := react e budget d
      let delivery := Delivery.mk e d.outbox.length replies
      let ((rest, more), d) := handOutPaid react fuel (budget - spent) d
      ((delivery :: rest, 1 + spent + more), d)
  | _, _, d =>
    let (all, d) := d.handOutAll
    ((all, 0), d)

def appendFor (event : Option Event) (d : Desk Bench) : Reply × Desk Bench :=
  match event with
  | some (.placement p) =>
    let (reply, d) := d.use (Board.appendItem Bench.surroundings p.kind p.position)
    (match reply with | none => .refused .busy | some id => .placed id, d.onOutside clearRecord)
  | _ => (.nothing, d)

end Desk

mutual

def Bench.Task.run : Bench.Task → Board → Desk Bench → Bench.Result
  | .page elements render, b, d =>
    let shown := if render then Bench.renderedItems b else []
    ⟨.nothing, b, d.onOutside fun s => { s with page := elements ++ shown }⟩
  | .initPalette selector canvas, b, d =>
    Bench.perform (.initPalette (Bench.currentPage d) selector canvas) b d
  | .initCanvas selector, b, d => Bench.perform (.initCanvas (Bench.currentPage d) selector) b d
  | .enable selector, b, d => Bench.perform (.enable (Bench.currentPage d) selector) b d
  | .setBounds r, b, d => Bench.perform (.setBounds r) b d
  | .append kind p, b, d => Bench.perform (.append kind p) b d
  | .insert i kind p, b, d => Bench.perform (.insert i kind p) b d
  | .remove id, b, d => Bench.perform (.remove id) b d
  | .attach item role, b, d => Bench.attach item role b d
  | .connect source target, b, d =>
    Bench.connect (source d.outside.named) (target d.outside.named) b d
  | .start source p, b, d => Bench.perform (.start source p) b d
  | .move p, b, d => Bench.perform (.move p) b d
  | .stop p, b, d => Bench.perform (.stop p) b d
  | .subscribe toPlacements, b, d => Bench.subscribe toPlacements b d
  | .unsubscribe fromPlacements n, b, d => Bench.unsubscribe fromPlacements n b d
  | .setHooks tag, b, d => Bench.perform (.setHooks tag) b d
  | .arm failure, b, d =>
    ⟨.nothing, b,
      d.onOutside fun s =>
        { s with library := { s.library with arms := s.library.arms ++ [failure] } }⟩
  | .ask query, b, d => ⟨.answer (query.answer b d.outside.memory), b, d⟩
  | .desk task, b, d =>
    let ((reply, _), d) := task.run none 0 d
    ⟨.desk reply, b, d⟩
  | .nothing, b, d => ⟨.nothing, b, d⟩

def Bench.runAll : List Bench.Task → Board → Desk Bench → Outcome (Desk Bench) (List Bench.Entry)
  | [], b, d => ⟨[], b, d⟩
  | t :: rest, b, d =>
    let o := Bench.withRecord t.run b d
    let more := Bench.runAll rest o.board o.outside
    { more with reply := o.reply :: more.reply }

/-- The reply to a task and what it took from the budget around it. -/
def Desk.Task.run : Desk.Task → Option Event → Nat → Desk Bench → (Desk.Reply × Nat) × Desk Bench
  | .use tasks, _, _, d =>
    let (reply, d) := d.use fun b d => Bench.runAll tasks b d
    ((match reply with | none => .refused .busy | some es => .entries es, 0), d)
  | .pending, _, _, d => ((.count d.outbox.length, 0), d)
  | .handOut, _, _, d =>
    let (all, d) := d.handOutAll
    ((.handed all, 0), d)
  | .handOutTo reaction own, _, budget, d =>
    let available := own.getD budget
    let ((all, spent), d) :=
      d.handOutPaid (fun e left d => Desk.runAll reaction (some e) left d) available available
    ((.handed all, if own.isSome then 0 else spent), d)
  | .appendEvent, event, _, d =>
    let (reply, d) := d.appendFor event
    ((reply, 0), d)
  | .nothing, _, _, d => ((.nothing, 0), d)

def Desk.runAll : List Desk.Task → Option Event → Nat → Desk Bench →
    (List Desk.Reply × Nat) × Desk Bench
  | [], _, _, d => (([], 0), d)
  | t :: rest, event, budget, d =>
    let ((reply, spent), d) := t.run event budget d
    let ((replies, more), d) := Desk.runAll rest event (budget - spent) d
    ((reply :: replies, spent + more), d)

end

end DiagramEditor
