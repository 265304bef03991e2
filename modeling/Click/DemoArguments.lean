/-
Any argument of the demo client.

What is given to `--controlmessage` need not be a list of robots.  The client cuts it at
every semicolon, and each piece at every colon; it looks at the first two fields of a
piece and raises an exception at the first piece that has not got them.

* `addRobot_of_takenFor`, `addRobot_of_refused` — what the loop makes of a piece;
* `firstMessage_controlmessage` — which arguments are accepted, and what is sent for them.
-/
import Click.DemoClient

open Proto Fluent

namespace Click.Pclick.DemoClient

open ControlMessageBuilderImpl (Kind)

variable {float : PyFloat}

/-- The arguments that decide what is sent. -/
structure Args where
  controlmessage : List Char := []
  controltype : Option ControlType := none
  resetmessage : Bool := false
  sensorrequest : Bool := false
  errormessage : Bool := false
  end_with_errormessage : Bool := false
  range : ℤ := 0

def errormessage : Message := ⟨.errorMessage, create_message .errorMessage⟩

/-- The chain of `if` and `elif`: the message that is sent first and again, or `none`
where nothing is received. -/
def firstMessage (float : PyFloat) (args : Args) : Except Error (Option Message) :=
  if args.controlmessage ≠ [] then
    (controlmessage float (args.controltype.map ControlType.text) args.controlmessage).map
      fun m => some ⟨.controlMessage, m⟩
  else if args.resetmessage then .ok (some ⟨.resetMessage, create_message .resetMessage⟩)
  else if args.sensorrequest then
    .ok (some ⟨.sensorRequestMessage, create_message .sensorRequestMessage⟩)
  else if args.errormessage then .ok none
  else .ok (some ⟨.handshakeInitMessage, create_message .handshakeInitMessage⟩)

/-- The fields of `arg` are the name of the robot, its literals, and anything else. -/
def TakenFor (arg : List Char) (r : Robot float) : Prop :=
  ∃ list rest, arg.splitOn ':' = r.name :: list :: rest ∧
    list.splitOn ',' = r.literals.map (·.text)

/-- The piece has one field only, or a literal that is no number. -/
inductive Refused (float : PyFloat) (arg : List Char) : Error → Prop
  | indexError : ':' ∉ arg → Refused float arg .indexError
  | valueError (name list : List Char) (rest : List (List Char)) (literal : List Char) :
    arg.splitOn ':' = name :: list :: rest → literal ∈ list.splitOn ',' → float literal = none →
    Refused float arg .valueError

/-- A part holds no separator and nothing that is not in the whole. -/
theorem of_mem_splitOn {α : Type} [DecidableEq α] {a : α} {xs l : List α}
    (hl : l ∈ xs.splitOn a) : a ∉ l ∧ ∀ x ∈ l, x ∈ xs := by
  induction xs generalizing l with
  | nil =>
    obtain rfl : l = [] := by simpa using hl
    simp
  | cons x xs ih =>
    rw [List.splitOn_cons_eq_if_modifyHead] at hl
    obtain ⟨p, ps, hparts⟩ := List.exists_cons_of_ne_nil (List.splitOn_ne_nil a xs)
    rw [hparts] at hl ih
    split at hl
    · rcases List.mem_cons.mp hl with rfl | hl
      · simp
      · exact ⟨(ih hl).1, fun y hy => List.mem_cons_of_mem x ((ih hl).2 y hy)⟩
    · next hne =>
      rcases List.mem_cons.mp hl with rfl | hl
      · have hp := ih List.mem_cons_self
        refine ⟨fun hmem => ?_, fun y hy => ?_⟩
        · rcases List.mem_cons.mp hmem with rfl | hmem
          · exact hne (by simp)
          · exact hp.1 hmem
        · exact (List.mem_cons.mp hy).elim (fun h => h ▸ List.mem_cons_self) fun h =>
            List.mem_cons_of_mem x (hp.2 y h)
      · have hp := ih (List.mem_cons_of_mem p hl)
        exact ⟨hp.1, fun y hy => List.mem_cons_of_mem x (hp.2 y hy)⟩

/-! ### One piece -/

theorem addRobot_of_takenFor (controltype : Option (List Char)) (m : Protobuf.ControlMessage)
    {arg : List Char} {r : Robot float} (h : TakenFor arg r) :
    addRobot float controltype m arg = .ok (enter controltype m r) := by
  obtain ⟨list, rest, hfields, hliterals⟩ := h
  rw [addRobot, hfields]
  simp only [hliterals, floats_literals]
  rfl

theorem floats_of_none {texts : List (List Char)} {literal : List Char} (hmem : literal ∈ texts)
    (hnone : float literal = none) : floats float texts = .error .valueError := by
  have hmap : texts.mapM float = none := by
    induction texts with
    | nil => exact absurd hmem List.not_mem_nil
    | cons text texts ih =>
      rw [List.mapM_cons]
      rcases List.mem_cons.mp hmem with rfl | hmem
      · rw [hnone]
        rfl
      · rw [ih hmem]
        cases float text <;> rfl
  rw [floats, hmap]

theorem addRobot_of_refused (controltype : Option (List Char)) (m : Protobuf.ControlMessage)
    {arg : List Char} {e : Error} (h : Refused float arg e) :
    addRobot float controltype m arg = .error e := by
  cases h with
  | indexError hcolon => rw [addRobot, List.splitOn_eq_singleton hcolon]
  | valueError name list rest literal hfields hmem hnone =>
    rw [addRobot, hfields]
    simp only [floats_of_none hmem hnone]
    rfl

/-- Literals that are all numbers. -/
theorem exists_literals {texts : List (List Char)} (h : ∀ text ∈ texts, float text ≠ none) :
    ∃ literals : List (Literal float), texts = literals.map (·.text) := by
  induction texts with
  | nil => exact ⟨[], rfl⟩
  | cons text texts ih =>
    rw [List.forall_mem_cons] at h
    obtain ⟨v, hv⟩ := Option.ne_none_iff_exists'.mp h.1
    obtain ⟨literals, rfl⟩ := ih h.2
    exact ⟨⟨text, v, hv⟩ :: literals, rfl⟩

/-- Each piece is taken for a robot or refused. -/
theorem takenFor_or_refused (float : PyFloat) {arg : List Char} (hsemicolon : ';' ∉ arg) :
    (∃ r : Robot float, TakenFor arg r) ∨ ∃ e, Refused float arg e := by
  by_cases hcolon : ':' ∈ arg
  · obtain ⟨name, list, rest, hfields⟩ : ∃ name list rest,
        arg.splitOn ':' = name :: list :: rest := by
      obtain ⟨name, fields, rfl, hname⟩ := List.eq_append_cons_of_mem hcolon
      obtain ⟨list, rest, hrest⟩ := List.exists_cons_of_ne_nil (List.splitOn_ne_nil ':' fields)
      exact ⟨name, list, rest, by rw [List.splitOn_append_cons_self_of_not_mem hname, hrest]⟩
    have hname := of_mem_splitOn (hfields ▸ List.mem_cons_self : name ∈ arg.splitOn ':')
    by_cases hall : ∀ literal ∈ list.splitOn ',', float literal ≠ none
    · obtain ⟨literals, hliterals⟩ := exists_literals hall
      have hne : literals ≠ [] := by
        rintro rfl
        exact List.splitOn_ne_nil ',' list hliterals
      exact .inl ⟨⟨name, literals, hne, hname.1, fun h => hsemicolon (hname.2 _ h)⟩, list, rest,
        hfields, hliterals⟩
    · obtain ⟨literal, hmem, hnone⟩ : ∃ literal ∈ list.splitOn ',', float literal = none := by
        simpa using hall
      exact .inr ⟨_, .valueError name list rest literal hfields hmem hnone⟩
  · exact .inr ⟨_, .indexError hcolon⟩

/-! ### The whole argument -/

theorem foldlM_of_takenFor (controltype : Option (List Char)) {pieces : List (List Char)}
    {robots : List (Robot float)} (h : List.Forall₂ TakenFor pieces robots)
    (m : Protobuf.ControlMessage) :
    pieces.foldlM (addRobot float controltype) m = .ok (robots.foldl (enter controltype) m) := by
  induction h generalizing m with
  | nil => rfl
  | cons hpiece _ ih =>
    rw [List.foldlM_cons, addRobot_of_takenFor controltype m hpiece]
    exact ih (enter controltype m _)

/-- The loop ends at the first piece that is refused. -/
theorem foldlM_of_refused (controltype : Option (List Char)) {pre : List (List Char)}
    (hpre : ∀ piece ∈ pre, ∃ r : Robot float, TakenFor piece r) {piece : List Char} {e : Error}
    (hpiece : Refused float piece e) (post : List (List Char)) (m : Protobuf.ControlMessage) :
    (pre ++ piece :: post).foldlM (addRobot float controltype) m = .error e := by
  induction pre generalizing m with
  | nil =>
    rw [List.nil_append, List.foldlM_cons, addRobot_of_refused controltype m hpiece]
    rfl
  | cons first pre ih =>
    rw [List.forall_mem_cons] at hpre
    obtain ⟨r, hr⟩ := hpre.1
    rw [List.cons_append, List.foldlM_cons, addRobot_of_takenFor controltype m hr]
    exact ih hpre.2 (enter controltype m r)

/-- All pieces are taken for robots, or there is a first one that is refused. -/
theorem pieces_cases (float : PyFloat) {pieces : List (List Char)}
    (h : ∀ piece ∈ pieces, ';' ∉ piece) :
    (∃ robots : List (Robot float), List.Forall₂ TakenFor pieces robots) ∨
      ∃ pre piece post e, pieces = pre ++ piece :: post ∧
        (∀ piece ∈ pre, ∃ r : Robot float, TakenFor piece r) ∧ Refused float piece e := by
  induction pieces with
  | nil => exact .inl ⟨[], .nil⟩
  | cons first pieces ih =>
    rw [List.forall_mem_cons] at h
    rcases takenFor_or_refused float h.1 with ⟨r, hr⟩ | ⟨e, he⟩
    · rcases ih h.2 with ⟨robots, hrobots⟩ | ⟨pre, piece, post, e, rfl, hpre, he⟩
      · exact .inl ⟨r :: robots, .cons hr hrobots⟩
      · exact .inr ⟨first :: pre, piece, post, e, rfl, List.forall_mem_cons.mpr ⟨⟨r, hr⟩, hpre⟩, he⟩
    · exact .inr ⟨[], first, pieces, e, rfl, by simp, he⟩

/-- The objects are the robots; the list of each that the type selects holds all the values
for the robot, in order, and the other lists are empty.  `AngularVelocity1D` selects none. -/
structure Holds (m : Protobuf.ControlMessage) (choice : Option ControlType)
    (robots : List (Robot float)) : Prop where
  messageType : m.messageType = MessageType.ControlMessageType
  objects : ∀ o, o ∈ m.objects ↔ ∃ r ∈ robots, key r.name = o
  lists : ∀ r ∈ robots, ∃ obj, m.objects[key r.name]? = some obj ∧ ∀ k : Kind, k.get obj =
    if choice ≠ some .AngularVelocity1D ∧ k = selected choice then
      (robots.filter (·.name = r.name)).flatMap Robot.values
    else []

theorem holds_foldl (choice : Option ControlType) (robots : List (Robot float)) :
    Holds (robots.foldl (enter (choice.map ControlType.text)) (create_message .controlMessage))
      choice robots where
  messageType := messageType_foldl _ _ _
  objects o := by
    rw [Std.ExtTreeMap.mem_iff_isSome_getElem?, objects_foldl]
    by_cases hany : robots.any (key ·.name = o) = true
    · rw [if_pos hany]
      simpa using hany
    · rw [if_neg hany]
      simpa using hany
  lists r hr := by
    obtain ⟨obj, hobj, hlists⟩ := lists_foldl choice hr
    refine ⟨obj, hobj, fun k => ?_⟩
    rw [hlists]
    congr 1
    rcases choice with _ | _ | _ | _ <;> simp [target, eq_comm]

theorem controlmessage_cases (float : PyFloat) (choice : Option ControlType) (args : List Char) :
    (∃ robots : List (Robot float), List.Forall₂ TakenFor (args.splitOn ';') robots ∧
      ∃ m, controlmessage float (choice.map ControlType.text) args = .ok m ∧
        Holds m choice robots) ∨
      ∃ pre piece post e, args.splitOn ';' = pre ++ piece :: post ∧
        (∀ piece ∈ pre, ∃ r : Robot float, TakenFor piece r) ∧ Refused float piece e ∧
        controlmessage float (choice.map ControlType.text) args = .error e := by
  have hpieces : ∀ piece ∈ args.splitOn ';', ';' ∉ piece := fun piece hpiece =>
    (of_mem_splitOn hpiece).1
  rcases pieces_cases float hpieces with ⟨robots, hrobots⟩ |
    ⟨pre, piece, post, e, hpieces, hpre, he⟩
  · exact .inl ⟨robots, hrobots, _, foldlM_of_takenFor _ hrobots _, holds_foldl choice robots⟩
  · refine .inr ⟨pre, piece, post, e, hpieces, hpre, he, ?_⟩
    rw [controlmessage, hpieces]
    exact foldlM_of_refused _ hpre he post _

/-- A piece is not both. -/
theorem not_refused_of_takenFor {piece : List Char} {r : Robot float} (hr : TakenFor piece r)
    {e : Error} (he : Refused float piece e) : False :=
  absurd ((addRobot_of_takenFor none {} hr).symm.trans (addRobot_of_refused none {} he)) (by simp)

/-- There is one first piece that is refused. -/
theorem eq_of_refused {pieces pre pre' post post' : List (List Char)} {piece piece' : List Char}
    {e e' : Error} (h : pieces = pre ++ piece :: post) (h' : pieces = pre' ++ piece' :: post')
    (hpre : ∀ piece ∈ pre, ∃ r : Robot float, TakenFor piece r)
    (hpre' : ∀ piece ∈ pre', ∃ r : Robot float, TakenFor piece r)
    (he : Refused float piece e) (he' : Refused float piece' e') : e = e' := by
  have hfold := foldlM_of_refused none hpre he post {}
  rw [← h, h', foldlM_of_refused none hpre' he' post'] at hfold
  exact (Except.error.inj hfold).symm

/-- **What the demo client makes of any argument** that is not empty.  It sends a message
exactly if all pieces have a name and a list of numbers: a ControlMessage that holds the
values of all robots in the list that the type selects; else it raises the exception of the
first piece that is refused, and sends nothing. -/
theorem firstMessage_controlmessage (float : PyFloat) (args : Args)
    (hne : args.controlmessage ≠ []) :
    (∀ message, firstMessage float args = .ok message →
        ∃ (robots : List (Robot float)) (m : Protobuf.ControlMessage),
          List.Forall₂ TakenFor (args.controlmessage.splitOn ';') robots ∧
          message = some ⟨.controlMessage, m⟩ ∧ Holds m args.controltype robots) ∧
      ((∃ message, firstMessage float args = .ok message) ↔
        ∀ piece ∈ args.controlmessage.splitOn ';', ∃ r : Robot float, TakenFor piece r) ∧
      (∀ e, firstMessage float args = .error e ↔
        ∃ pre piece post, args.controlmessage.splitOn ';' = pre ++ piece :: post ∧
          (∀ piece ∈ pre, ∃ r : Robot float, TakenFor piece r) ∧ Refused float piece e) := by
  rw [firstMessage, if_pos hne]
  rcases controlmessage_cases float args.controltype args.controlmessage with
    ⟨robots, hrobots, m, hm, hholds⟩ | ⟨pre, piece, post, e, hpieces, hpre, he, herror⟩
  · have htaken : ∀ piece ∈ args.controlmessage.splitOn ';', ∃ r : Robot float,
        TakenFor piece r := by
      intro piece hpiece
      obtain ⟨i, hi, rfl⟩ := List.getElem_of_mem hpiece
      exact ⟨_, hrobots.get hi (hrobots.length_eq ▸ hi)⟩
    rw [hm]
    refine ⟨?_, iff_of_true ⟨_, rfl⟩ htaken, fun e => iff_of_false (by simp [Except.map]) ?_⟩
    · rintro _ ⟨⟩
      exact ⟨robots, m, hrobots, rfl, hholds⟩
    · rintro ⟨pre, piece, post, hpieces, -, he⟩
      obtain ⟨r, hr⟩ := htaken piece (hpieces ▸ List.mem_append_right pre List.mem_cons_self)
      exact not_refused_of_takenFor hr he
  · rw [herror]
    refine ⟨fun _ hc => absurd hc (by simp [Except.map]), iff_of_false (by simp [Except.map]) ?_,
      fun e' => ⟨?_, fun ⟨pre', piece', post', hpieces', hpre', he'⟩ => ?_⟩⟩
    · intro hall
      obtain ⟨r, hr⟩ := hall piece (hpieces ▸ List.mem_append_right pre List.mem_cons_self)
      exact not_refused_of_takenFor hr he
    · rintro ⟨⟩
      exact ⟨pre, piece, post, hpieces, hpre, he⟩
    · exact congrArg Except.error (eq_of_refused hpieces hpieces' hpre hpre' he he')

/-- A robot without a colon. -/
theorem firstMessage_controlmessage_refused :
    firstMessage floatZero { controlmessage := ['r'] } = .error .indexError :=
  ((firstMessage_controlmessage floatZero { controlmessage := ['r'] } (by simp)).2.2
    .indexError).mpr ⟨[], ['r'], [], rfl, by simp, .indexError (by decide)⟩

end Click.Pclick.DemoClient
