import DiagramEditor.Browser.Tab
import DiagramEditor.Form.Gesture
import DiagramEditor.Form.Settings
/-!
Runs scripts in a tab. Scripts call the board, the board calls the drawing library, and the library
and the callbacks for events run scripts in turn. Every such turn goes down one level; a fixed
number of levels bounds the depth, as the stack of a browser does. Events are delivered after the
call that raised them has given the board back, so a callback finds the board free, while a function
of the library that is called during an operation finds it in use.
-/
namespace DiagramEditor.Browser

/-- What is done one level down. -/
inductive Turn
  | op (op : Op)
  | deliver

abbrev Again := Turn → Site → Answer × Site

namespace Site

def add (s : Site) (e : Trace) : Site := s.onOutside fun t => t.add e

def log (s : Site) (e : Log.Entry) : Site := s.onOutside fun t => t.log e

def tell (s : Site) (ms : List Moment) : Site := s.onOutside fun t => t.tell ms

def execute (again : Again) : Program → Site → Except Value Value × Site
  | .returns v, s => (.ok v, s)
  | .throws v, s => (.error v, s)
  | .call op next, s =>
    let (answer, s) := again (.op op) s
    execute again (next answer) s

def invoke (again : Again) (name : String) (arguments : List Value) (s : Site) :
    Except Failure Value × Site :=
  match s.outside.methods.get? name with
  | none | some .notCallable => (.error .notCallable, s)
  | some (.unreadable v) => (.error (.threw v), s)
  | some (.function body) =>
    let s := add (tell s [.begins (.library name arguments)]) (.call name arguments)
    let (result, s) := execute again (body arguments) s
    (result.mapError .threw, tell s [.ends (.library name arguments)])

def setStyle (n : Node) (property value : String) (s : Site) : Except Value Unit × Site :=
  let s := add s (.style n.id property value)
  match n.styleThrows with
  | some v => (.error v, s)
  | none => (.ok (), s)

def host (again : Again) : Host Site Node where
  invoke := invoke again
  elementById? := fun id s => s.outside.dom.elementById? id
  hasStyle := fun n => n.kind = .styled
  setStyle := setStyle
  parse := fun text s => (.ok (.parsed text), s)

/-- The connection library of a board in a tab. The registry is out of reach of the scripts that a
call runs. -/
def library (again : Again) : Wiring.Library Site := fun c s =>
  let (answer, a) := Adapter.library (host again) c ⟨s, s.outside.registry⟩
  (answer, a.page.onOutside fun t => { t with registry := a.registry })

def surroundings (again : Again) : Surroundings Site where
  call := library again
  note n s := s.note Tab.note n

def callbackThrew (v : Value) : Log.Entry :=
  ⟨.warn, "event callback threw", [("error", .shown v.debugText)]⟩

/-- Calls a callback with an event. What it throws is logged. -/
def callBack (again : Again) (event : Value) (s : Site) (number : Nat) : Site :=
  let s := add (tell s [.begins (.callback number event)]) (.callback number event)
  let (result, s) := execute again (bodyOf s.outside.callbacks number event) s
  let s :=
    match result with
    | .ok _ => s
    | .error v => log s (callbackThrew v)
  tell s [.ends (.callback number event)]

/-- Delivers an event to the callbacks that are registered for it when its delivery begins. -/
def deliverEvent (again : Again) (e : Event) (s : Site) : Site :=
  let s := tell s [.begins (.delivery e), .borrows .listeners, .returns .listeners]
  let audience := Tab.audience s.outside.listeners (.of e)
  tell (audience.foldl (callBack again (.sent e.toJson)) s) [.ends (.delivery e)]

def deliver (again : Again) (s : Site) : Answer × Site :=
  let s := tell s [.borrows .queue, .returns .queue]
  match s.pop? with
  | none => (.ok .undefined, s)
  | some (e, s) => again .deliver (deliverEvent again e s)

def useBoard (again : Again) (f : Board → Site → Outcome Site α) (s : Site) :
    Except Refusal α × Site :=
  match s.use fun b s => f b (tell s [.borrows .board]) with
  | (none, s) => (.error .busy, tell s [.refuses])
  | (some a, s) => (.ok a, (again .deliver (tell s [.returns .board])).2)

def look (again : Again) (give : Board → α) : Site → Except Refusal α × Site :=
  useBoard again fun b s => ⟨give b, b, s⟩

def answerFor : Board.Reply → Answer
  | .refused f => .error (.fault f)
  | .palette p => .ok (.sent (.ofList Template.toJson p.templates))
  | .bounds r => .ok (.sent r.toJson)
  | .count n => .ok (.number n.toFloat)
  | .placed id => .ok (.string id.text)
  | .named id => .ok (.string id.text)
  | .actions as => .ok (.sent (.ofList Action.toJson as))
  | .done | .removed _ | .subscribed _ | .unsubscribed _ => .ok .undefined

def nextId (s : Site) : Uuid := .ofCounter s.outside.ids

def work (again : Again) (op : Board.Op) (s : Site) : Answer × Site :=
  let (reply, s) := useBoard again (fun b s =>
    Board.step (surroundings again) op b
      (s.onOutside fun t => { t.tell [.works b op] with ids := t.ids + 1 })) s
  (reply.bind answerFor, s)

def initCanvas (again : Again) (selector : String) (s : Site) : Answer × Site :=
  work again (.initCanvas s.outside.dom.page selector) s

def refreshCanvas (again : Again) (s : Site) : Answer × Site :=
  match look again (fun b => b.surface.map (·.selector)) s with
  | (.error r, s) => (.error r, s)
  | (.ok none, s) => (.error (.fault .canvasNotInitialized), s)
  | (.ok (some selector), s) => initCanvas again selector s

/-- Both texts have to spell ids before the board is asked. -/
def connectEndpoints (again : Again) (source target : String) (s : Site) : Answer × Site :=
  match Uuid.parse? source with
  | none => (.error (.invalidEndpointId source), s)
  | some first =>
    match Uuid.parse? target with
    | none => (.error (.invalidEndpointId target), s)
    | some second => work again (.connect s.nextId first second) s

def act (again : Again) : Op → Site → Answer × Site
  | .initPalette selector canvas, s =>
    work again (.initPalette s.outside.dom.page selector canvas) s
  | .initCanvas selector, s => initCanvas again selector s
  | .refreshCanvas, s => refreshCanvas again s
  | .enableItemDragging selector, s => work again (.enable s.outside.dom.page selector) s
  | .appendItem kind p, s => work again (.append kind p) s
  | .insertItem i kind p, s => work again (.insert i kind p) s
  | .removeItem id, s => work again (.remove ⟨id⟩) s
  | .items, s => look again (fun b => .sent (.ofList Item.toJson b.document.items)) s
  | .addEndpoint role item, s => work again (.attach s.nextId ⟨item⟩ role) s
  | .connect source target, s => connectEndpoints again source target s
  | .dragTemplate kind p, s => work again (.start (.template kind) p) s
  | .dragItem id p, s => work again (.start (.item ⟨id⟩) p) s
  | .dragForeign p, s => work again (.start .foreign p) s
  | .dragMove p, s => work again (.move p) s
  | .dragStop p, s => work again (.stop p) s
  | .isDragging, s => look again (fun b => .bool b.isDragging) s
  | .on kind callback, s =>
    let (handle, tab) := s.outside.register kind callback
    (.ok (.number handle.toFloat), { s with outside := tab })
  | .off handle, s =>
    let (was, tab) := s.outside.unregister handle
    (.ok (.bool was), { s with outside := tab })
  | .setDom dom, s => (.ok .undefined, s.onOutside fun t => { t with dom := dom })
  | .define name property, s => (.ok .undefined, s.onOutside (Tab.define name property))
  | .log level text, s => (.ok .undefined, log s ⟨level, text, []⟩)
  | .report name answer, s => (.ok .undefined, add s (.report name answer))
  | .retrieve, s => (.ok s.outside.memory, s)
  | .remember v, s => (.ok .undefined, s.onOutside fun t => { t with memory := v })

def perform (again : Again) (op : Op) (s : Site) : Answer × Site :=
  let (answer, s) := act again op (tell s [.begins (.method op)])
  (answer, tell s [.answers op answer])

/-- Runs a turn with a number of levels to go down. -/
def run : Nat → Again
  | 0, .op op, s => (.error .tooDeep, tell s [.overflows op])
  | 0, .deliver, s => (.error .tooDeep, s)
  | depth + 1, .op op, s => perform (run depth) op s
  | depth + 1, .deliver, s => deliver (run depth) s

def maxLevels : Nat := 10000

def call (op : Op) (s : Site) : Answer × Site :=
  run maxLevels (.op op) s

def settingsOf (raw : String) : Except Fault Settings :=
  if Text.blank raw then .ok {} else Settings.read raw

def created : Log.Entry := ⟨.info, "page controller created", []⟩

/-- A board in a tab. Blank settings are the default ones; settings come before the log, and that
before the parts of the page. -/
def new (settings : String) (t : Tab) : Except Refusal Site :=
  match settingsOf settings with
  | .error f => .error (.fault f)
  | .ok settings =>
    let t := { t with console := t.console.install settings.logLevel }
    if !t.dom.hasWindow then .error (.noBrowser "window")
    else if !t.dom.hasDocument then .error (.noBrowser "document")
    else
      match Board.new settings with
      | .error f => .error (.fault f)
      | .ok b => .ok (Desk.place b (t.log created))

end Site

end DiagramEditor.Browser
