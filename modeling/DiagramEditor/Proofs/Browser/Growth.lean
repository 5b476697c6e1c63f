import DiagramEditor.Browser.Run
import DiagramEditor.Proofs.Board.Conduct
import DiagramEditor.Proofs.Browser.Adapter

/-! The account of a tab only grows, whatever scripts do and wherever they run. -/
namespace DiagramEditor.Browser.Site

/-- What had happened once is still told. -/
def Grown (past : List Moment) (s : Site) : Prop := past <+: s.outside.account

def Grows (again : Again) : Prop := ∀ {past s} turn, Grown past s → Grown past (again turn s).2

section Growth
variable {again : Again} (ha : Grows again) {past : List Moment} {s t : Site} {α : Type}

theorem Grown.goes (h : Grown past s) (ms : List Moment)
    (ht : t.outside.account = s.outside.account ++ ms) : Grown past t := by
  rw [Grown, ht]
  exact h.trans (List.prefix_append _ ms)

theorem Grown.tell (h : Grown past s) (ms : List Moment) : Grown past (s.tell ms) :=
  h.goes ms rfl

theorem note_grown (h : Grown past s) (n : Note) : Grown past (s.note Tab.note n) := by
  cases n with
  | placement who p =>
    cases who with
    | outbox => exact h.tell _
    | listener i => exact h
  | move who m =>
    cases who with
    | outbox => exact h.tell _
    | listener i => exact h
  | _ => exact h

include ha

theorem execute_grown (h : Grown past s) (p : Program) : Grown past (execute again p s).2 := by
  fun_induction execute again p s with
  | case1 v s => exact h
  | case2 v s => exact h
  | case3 op next s answer s' hop ih =>
    have hcalled := ha (.op op) h
    rw [hop] at hcalled
    exact ih hcalled

theorem invoke_grown (h : Grown past s) (name : String) (arguments : List Value) :
    Grown past (invoke again name arguments s).2 := by
  simp only [invoke]
  split
  · exact h
  · exact h
  · exact h
  · next body _ =>
    have hbegun : Grown past
        (add (tell s [.begins (.library name arguments)]) (.call name arguments)) := h.tell _
    exact (execute_grown ha hbegun (body arguments)).tell _

theorem host_grown : (host again).Keeps (Grown past) where
  invoke := fun h => invoke_grown ha h _ _
  setStyle := by
    intro n property value s h
    simp only [host, setStyle]
    split
    · exact h
    · exact h
  parse := fun h => h

theorem step_grown (h : Grown past s) (op : Board.Op) (b : Board) :
    Grown past (Board.step (surroundings again) op b s).outside := by
  refine (Board.step_trail (surroundings again) b s op).keeps_outside (P := Grown past) ?_ ?_ h
  · intro c s h
    exact Adapter.library_keeps (host_grown ha) c (a := ⟨s, s.outside.registry⟩) h
  · intro n s h
    exact note_grown h n

theorem callBack_grown (h : Grown past s) (event : Value) (n : Nat) :
    Grown past (callBack again event s n) := by
  have hbegun : Grown past (add (tell s [.begins (.callback n event)]) (.callback n event)) :=
    h.tell _
  have hrun := execute_grown ha hbegun (bodyOf s.outside.callbacks n event)
  simp only [callBack]
  split
  · exact hrun.tell _
  · exact hrun.goes _ rfl

theorem callBacks_grown (h : Grown past s) (event : Value) (ns : List Nat) :
    Grown past (ns.foldl (callBack again event) s) := by
  induction ns generalizing s with
  | nil => exact h
  | cons n ns ih => exact ih (callBack_grown ha h event n)

theorem deliverEvent_grown (h : Grown past s) (e : Event) :
    Grown past (deliverEvent again e s) :=
  (callBacks_grown ha (h.tell _) _ _).tell _

theorem deliver_grown (h : Grown past s) : Grown past (deliver again s).2 := by
  have hasked : Grown past (tell s [.borrows .queue, .returns .queue]) := h.tell _
  simp only [deliver, Desk.pop?]
  cases (tell s [.borrows .queue, .returns .queue]).outbox with
  | nil => exact hasked
  | cons e rest =>
    have htaken : Grown past { tell s [.borrows .queue, .returns .queue] with outbox := rest } :=
      hasked
    exact ha .deliver (deliverEvent_grown ha htaken e)

theorem useBoard_grown (h : Grown past s) {f : Board → Site → Outcome Site α}
    (hf : ∀ {s} b, Grown past s → Grown past (f b s).outside) :
    Grown past (useBoard again f s).2 := by
  cases hb : s.busy with
  | true =>
    simp only [useBoard, Desk.use, hb]
    exact h.tell _
  | false =>
    have hused : Grown past (f s.board (tell { s with busy := true } [.borrows .board])).outside :=
      hf s.board (h.goes _ rfl)
    simp only [useBoard, Desk.use, hb]
    exact ha .deliver (hused.goes _ rfl)

theorem work_grown (h : Grown past s) (op : Board.Op) : Grown past (work again op s).2 := by
  have hworks : ∀ {s : Site} b, Grown past s → Grown past (Board.step (surroundings again) op b
      (s.onOutside fun t => { t.tell [.works b op] with ids := t.ids + 1 })).outside :=
    fun b h => step_grown ha (h.goes [.works b op] rfl) op b
  exact useBoard_grown ha h hworks

theorem work_told (hb : s.busy = false) (op : Board.Op) :
    Grown (s.outside.account ++ [.borrows .board, .works s.board op]) (work again op s).2 := by
  have htold : Grown (s.outside.account ++ [.borrows .board, .works s.board op])
      ((tell { s with busy := true } [.borrows .board]).onOutside fun t =>
        { t.tell [.works s.board op] with ids := t.ids + 1 }) := by
    simp [Grown, Site.tell, Desk.onOutside, Tab.tell]
  simp only [work, useBoard, Desk.use, hb]
  exact ha .deliver ((step_grown ha htold op s.board).goes _ rfl)

theorem look_grown (h : Grown past s) (give : Board → α) : Grown past (look again give s).2 :=
  useBoard_grown ha h fun _ h => h

theorem act_grown (h : Grown past s) (op : Op) : Grown past (act again op s).2 := by
  cases op with
  | refreshCanvas =>
    have hlooked := look_grown ha h fun b => b.surface.map (·.selector)
    simp only [act, refreshCanvas]
    split
    · next he =>
      rw [he] at hlooked
      exact hlooked
    · next he =>
      rw [he] at hlooked
      exact hlooked
    · next he =>
      rw [he] at hlooked
      exact work_grown ha hlooked _
  | connect source target =>
    simp only [act, connectEndpoints]
    split
    · exact h
    · split
      · exact h
      · exact work_grown ha h _
  | items | isDragging => exact look_grown ha h _
  | on | off | define => exact h.trans (List.prefix_append _ _)
  | setDom | log | report | retrieve | remember => exact h
  | _ => exact work_grown ha h _

omit ha in
theorem run_grown (levels : Nat) : Grows (run levels) := by
  induction levels with
  | zero =>
    intro past s turn h
    cases turn with
    | op op => exact h.tell _
    | deliver => exact h
  | succ levels ih =>
    intro past s turn h
    cases turn with
    | op op => exact (act_grown ih (h.tell _) op).tell _
    | deliver => exact deliver_grown ih h

end Growth

end DiagramEditor.Browser.Site
