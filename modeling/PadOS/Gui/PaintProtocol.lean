import PadOS.Gui.DamageRegions

/-! # Painting

A view whose damage becomes active is sent a paint message. The client begins an update, paints
and ends it, and the end of the update hands over the damage recorded meanwhile. Each message
has an identity here that only the state keeps, so that it can be said which of them an update
answers.
-/

namespace PadOS.Gui

open Rectangle PRegion Transition PServerView List Option Forest Function

structure PaintMessage where
  id : Nat
  handle : Nat
  deriving DecidableEq

/-- What the client posts to the server about a view while it handles a paint message. -/
inductive UpdateRequest
  | beginUpdate (handle id : Nat)
  | endUpdate (handle id : Nat)
  deriving DecidableEq

def UpdateRequest.view : UpdateRequest → Nat
  | beginUpdate handle _ => handle
  | endUpdate handle _ => handle

/-- The views, the messages in flight to the clients, the message each view's client is
handling, what the clients have posted, and the message posted last for each view. -/
structure PaintState where
  views : ChildList
  inFlight : List PaintMessage
  painting : Nat → Option Nat
  requests : List UpdateRequest
  activePaint : Nat → Option Nat
  nextId : Nat

inductive PaintOp
  | invalidate (handle : Nat) (rect : PIRect)
  | invalidateAll (handle : Nat)
  | updateRegions (handle : Nat) (requestPaint : Bool) (delivered : Nat → Bool)
  | requestPaintIfNeeded (handle : Nat) (delivered : Nat → Bool)
  | showView (handle : Nat) (doShow : Bool)
  /-- The server takes a request; those of one view are taken in their order. -/
  | dispatch (k : Nat) (delivered : Nat → Bool)
  | handlePaint (k : Nat)
  | finishPaint (handle : Nat)

namespace PaintState

/-- A paint message that the client's port has taken. -/
def post (s : PaintState) (handle : Nat) : PaintState :=
  { s with
    inFlight := s.inFlight ++ [⟨s.nextId, handle⟩]
    activePaint := update s.activePaint handle (some s.nextId)
    nextId := s.nextId + 1 }

def focus (s : PaintState) (handle : Nat) : Option (Forest.Focus PServerView) :=
  s.views.focus? PServerView.handle handle none

/-- The subtree of a view as `UpdateRegions` has it when it requests the painting. -/
def settled (order : StdSort) (topView : Nat) (focus : Forest.Focus PServerView) : ChildList :=
  flushTopView topView (settleRegions order focus.parent focus.node focus.children focus.rest)

/-- The subtree in its new form, and the messages posted for its views. -/
def withPosts (s : PaintState) (focus : Forest.Focus PServerView) (result : Forest (PServerView × Bool)) :
    PaintState :=
  let posted := (result.toList.filter fun view => view.2).map fun view => view.1.handle
  posted.foldl post { s with views := plugFirst focus (result.map Prod.fst) }

def step (order : StdSort) (topView : Nat) (s : PaintState) : PaintOp → Option PaintState
  | .invalidate handle rect =>
    (s.focus handle).map fun focus =>
      { s with views := focus.plug (focus.node.invalidate rect) focus.children }
  | .invalidateAll handle =>
    (s.focus handle).map fun focus =>
      { s with views := plugFirst focus (PServerView.invalidateAll (.tree focus.node focus.children)) }
  | .updateRegions handle requestPaint delivered =>
    (s.focus handle).map fun focus =>
      if requestPaint then
        s.withPosts focus
          ((PServerView.requestPaintIfNeeded order delivered (settled order topView focus)).map
            fun view => (view.1.clearDirtyRegFlags, view.2))
      else
        { s with views := plugFirst focus ((settleRegions order focus.parent focus.node
            focus.children focus.rest).map clearDirtyRegFlags) }
  | .requestPaintIfNeeded handle delivered =>
    (s.focus handle).map fun focus =>
      s.withPosts focus
        (PServerView.requestPaintIfNeeded order delivered (.tree focus.node focus.children))
  | .showView handle doShow =>
    (PServerView.showView s.views handle doShow).map fun views => { s with views := views }
  | .dispatch k delivered =>
    match s.requests[k]? with
    | none => none
    | some request =>
      if (s.requests.take k).any fun earlier => earlier.view == request.view then none
      else
        let taken := { s with requests := s.requests.eraseIdx k }
        match s.focus request.view with
        | none => some taken
        | some focus =>
          match request with
          | .beginUpdate _ _ =>
            some { taken with views := focus.plug focus.node.beginUpdate focus.children }
          | .endUpdate _ _ =>
            match focus.node.endUpdate delivered with
            | (view, posted) =>
              let ended := { taken with views := focus.plug view focus.children }
              some (if posted then ended.post view.handle else ended)
  | .handlePaint k =>
    match s.inFlight[k]? with
    | none => none
    | some message =>
      match s.painting message.handle with
      | some _ => none
      | none =>
        some { s with
          inFlight := s.inFlight.eraseIdx k
          painting := update s.painting message.handle (some message.id)
          requests := s.requests ++ [.beginUpdate message.handle message.id] }
  | .finishPaint handle =>
    match s.painting handle with
    | none => none
    | some id =>
      some { s with
        painting := update s.painting handle none
        requests := s.requests ++ [.endUpdate handle id] }

end PaintState

def paintSystem (order : StdSort) (topView : Nat) : System PaintState PaintOp :=
  ⟨PaintState.step order topView⟩

/-! ## When every damage that is handed over is posted -/

/-- `Paint` would post the message. -/
def canPaint (view : PServerView) (delivered : Nat → Bool) : Prop :=
  view.clientHandle.isSome ∧ view.isUpdating = false ∧ delivered view.handle

/-- Each view that is shown and hands its damage over has a client that is not updating it
and takes the message. -/
def AllPosted (delivered : Nat → Bool) (forest : ChildList) : Prop :=
  (withShown true forest).All fun view => view.2 → view.1.damageReg.isSome →
    view.1.activeDamageReg = none → canPaint view.1 delivered

/-- A condition on the operations that hand damage over: the messages are posted, and an update
that ends is the one for the active damage. -/
def PostsPaint (order : StdSort) (topView : Nat) : Condition PaintState PaintOp := fun s op =>
  match op with
  | .updateRegions handle true delivered =>
    ∀ focus, s.focus handle = some focus → AllPosted delivered (PaintState.settled order topView focus)
  | .requestPaintIfNeeded handle delivered =>
    ∀ focus, s.focus handle = some focus → AllPosted delivered (.tree focus.node focus.children)
  | .dispatch k delivered =>
    match s.requests[k]? with
    | some (.endUpdate handle id) => ∀ focus, s.focus handle = some focus →
        (focus.node.activeDamageReg.isSome → s.activePaint handle = some id) ∧
        (focus.node.damageReg.isSome → focus.node.isVisible ∧ focus.node.clientHandle.isSome ∧
          delivered focus.node.handle)
    | _ => True
  | _ => True

/-! ## Messages that are outstanding -/

namespace PaintState

/-- The paint message is in flight, or the client has taken it and the server has not yet seen
the end of the update. -/
def Outstanding (s : PaintState) (handle id : Nat) : Prop :=
  ⟨id, handle⟩ ∈ s.inFlight ∨ s.painting handle = some id ∨ .endUpdate handle id ∈ s.requests

/-- The message that was posted for the view's active damage is outstanding. -/
def AwaitsPaint (s : PaintState) (handle : Nat) : Prop :=
  ∃ id, s.activePaint handle = some id ∧ s.Outstanding handle id

/-- The message of the view's active damage is in flight. -/
def Posted (s : PaintState) (handle : Nat) : Prop :=
  ∃ id, s.activePaint handle = some id ∧ ⟨id, handle⟩ ∈ s.inFlight

structure Consistent (s : PaintState) : Prop where
  distinct : (s.views.toList.map PServerView.handle).Nodup
  awaits : s.views.All fun view => view.activeDamageReg.isSome → s.AwaitsPaint view.handle

variable {s t : PaintState} {handle handle' id : Nat}

theorem Posted.awaits (posted : s.Posted handle) : s.AwaitsPaint handle := by
  rcases posted with ⟨id, isActive, flies⟩
  exact ⟨id, isActive, .inl flies⟩

theorem post_posted (s : PaintState) (handle : Nat) : (s.post handle).Posted handle :=
  ⟨s.nextId, update_self .., mem_append_right _ mem_cons_self⟩

theorem Posted.post (posted : s.Posted handle) (handle' : Nat) : (s.post handle').Posted handle := by
  by_cases same : handle = handle'
  · rw [same]
    exact post_posted s handle'
  · rcases posted with ⟨id, isActive, flies⟩
    exact ⟨id, by rw [← isActive]; exact update_of_ne same _ _, mem_append_left _ flies⟩

theorem AwaitsPaint.post (awaits : s.AwaitsPaint handle) (handle' : Nat) :
    (s.post handle').AwaitsPaint handle := by
  by_cases same : handle = handle'
  · rw [same]
    exact (post_posted s handle').awaits
  · rcases awaits with ⟨id, isActive, outstanding⟩
    refine ⟨id, by rw [← isActive]; exact update_of_ne same _ _, ?_⟩
    rcases outstanding with flies | paints | ends
    · exact .inl (mem_append_left _ flies)
    · exact .inr (.inl paints)
    · exact .inr (.inr ends)

theorem posts_views (handles : List Nat) (s : PaintState) : (handles.foldl post s).views = s.views := by
  induction handles generalizing s with
  | nil => rfl
  | cons handle handles ih => exact ih _

theorem AwaitsPaint.posts (awaits : s.AwaitsPaint handle) (handles : List Nat) :
    (handles.foldl PaintState.post s).AwaitsPaint handle := by
  induction handles generalizing s with
  | nil => exact awaits
  | cons other handles ih => exact ih (awaits.post other)

theorem Posted.posts (posted : s.Posted handle) (handles : List Nat) :
    (handles.foldl PaintState.post s).Posted handle := by
  induction handles generalizing s with
  | nil => exact posted
  | cons other handles ih => exact ih (posted.post other)

theorem posts_posted {handles : List Nat} (member : handle ∈ handles) (s : PaintState) :
    (handles.foldl PaintState.post s).Posted handle := by
  induction handles generalizing s with
  | nil => cases member
  | cons other handles ih =>
    rcases mem_cons.1 member with rfl | member
    · exact (post_posted s handle).posts handles
    · exact ih member _

/-! ## What a step does to a view -/

/-- The damage of a view that is shown is still recorded, or it is active and its paint message
is in flight; its active damage stays, or the update that was begun for it ends. -/
structure Kept (order : StdSort) (topView : Nat) (s t : PaintState) (op : PaintOp)
    (view : PServerView × Bool) (view' : PServerView) : Prop where
  damage : view.2 → view.1.handle ≠ topView → ∀ damageReg, view.1.damageReg = some damageReg →
    ∃ damageReg', covered damageReg ∩ (PIRect.ofPRect view.1.getNormalizedBounds).points ⊆
        covered damageReg' ∧
      (view'.damageReg = some damageReg' ∨ t.Posted view.1.handle ∧
        (view'.activeDamageReg = some damageReg' ∨
          view'.activeDamageReg = some (optimize order damageReg')))
  active : view.2 → ∀ damageReg, view.1.activeDamageReg = some damageReg →
    view'.activeDamageReg = some damageReg ∨ ∃ k delivered id, op = .dispatch k delivered ∧
      s.requests[k]? = some (.endUpdate view.1.handle id) ∧ s.activePaint view.1.handle = some id

/-- What becomes of a view, as far as the messages are concerned. -/
structure Linked (t : PaintState) (view : PServerView) (view' : PServerView) : Prop where
  handle : view'.handle = view.handle
  awaits : view'.activeDamageReg.isSome → view.activeDamageReg.isSome ∨ t.AwaitsPaint view'.handle

variable {order : StdSort} {topView : Nat} {op : PaintOp} {views : ChildList} {b : Bool}
  {view view' : PServerView} {delivered : Nat → Bool}

theorem Consistent.step (consistent : s.Consistent) (linked : Forest.Rel (Linked t) s.views t.views)
    (still : ∀ handle, s.AwaitsPaint handle → t.AwaitsPaint handle) : t.Consistent where
  distinct := by
    have same := linked.map_toList PServerView.handle PServerView.handle fun _ _ linked => linked.handle.symm
    rw [← same]
    exact consistent.distinct
  awaits := by
    apply linked.all consistent.awaits
    intro x y linked awaits isActive
    rcases linked.awaits isActive with before | now
    · rw [linked.handle]
      exact still _ (awaits before)
    · exact now

theorem Kept.of_grows (grows : Grows view view') (b : Bool) : Kept order topView s t op (view, b) view' where
  damage := by
    intro _ _ damageReg isDamage
    rcases grows.damage damageReg isDamage with ⟨damageReg', isDamage', inside⟩
    exact ⟨damageReg', inside, .inl isDamage'⟩
  active := fun _ damageReg isActive => .inl (grows.active.trans isActive)

theorem Linked.of_grows (grows : Grows view view') : Linked t view view' :=
  ⟨grows.handle, fun isActive => .inl (by rw [← grows.active]; exact isActive)⟩

theorem step_of_grows (consistent : s.Consistent) (grows : Forest.Rel Grows s.views t.views)
    (still : ∀ handle, s.AwaitsPaint handle → t.AwaitsPaint handle) :
    t.Consistent ∧ Forest.Rel (Kept order topView s t op) (withShown true s.views) t.views :=
  ⟨consistent.step (grows.imp fun _ _ => Linked.of_grows) still,
    withShown_rel grows (fun _ b _ grows => .of_grows grows b) true⟩

theorem kept_of_prepared {x : PServerView × Bool} {y : PServerView × Bool}
    (prepared : Prepared topView (view, b) x.1) (requests : Requests order delivered x y)
    (posts : x.2 → x.1.damageReg.isSome → x.1.activeDamageReg = none → y.2 = x.1.paint delivered →
      t.Posted view.handle) :
    Kept order topView s t op (view, b) y.1 where
  damage := by
    intro shown notTop damageReg isDamage
    rcases prepared.damage shown notTop damageReg isDamage with ⟨damageReg', isDamage', inside⟩
    refine ⟨damageReg', inside, ?_⟩
    rcases requests.effect with ⟨_, _, same⟩ | ⟨handed, shown', pending, free, active, isPosted⟩
    · exact .inl (same.trans isDamage')
    · have isSome : x.1.damageReg.isSome := by
        rw [pending]
        rfl
      obtain rfl := some.inj (pending.symm.trans isDamage')
      exact .inr ⟨posts shown' isSome free isPosted, .inr active⟩
  active := by
    intro shown damageReg isActive
    have before := (prepared.kept shown).trans isActive
    rcases requests.effect with ⟨_, same, _⟩ | ⟨_, _, _, free, _⟩
    · exact .inl (same.trans before)
    · rw [before] at free
      cases free

theorem linked_of_prepared {x : PServerView × Bool} {y : PServerView × Bool}
    (prepared : Prepared topView (view, b) x.1) (requests : Requests order delivered x y)
    (posts : x.2 → x.1.damageReg.isSome → x.1.activeDamageReg = none → y.2 = x.1.paint delivered →
      t.Posted view.handle) : Linked t view y.1 where
  handle := requests.handle.trans prepared.handle
  awaits := by
    intro isActive
    rcases requests.effect with ⟨_, same, _⟩ | ⟨handed, shown', pending, free, active, isPosted⟩
    · left
      rw [same] at isActive
      rcases prepared.active with before | none'
      · rw [← before]
        exact isActive
      · rw [none'] at isActive
        cases isActive
    · have isSome : x.1.damageReg.isSome := by
        rw [pending]
        rfl
      rw [requests.handle, prepared.handle]
      exact .inr (posts shown' isSome free isPosted).awaits

variable {focus : Forest.Focus PServerView} {forest : ChildList} {result : Forest (PServerView × Bool)}

theorem kept_same (x : PServerView) (b : Bool) : Kept order topView s t op (x, b) x :=
  .of_grows (.refl x) b

theorem kept_hidden (x y : PServerView) : Kept order topView s t op (x, false) y :=
  ⟨fun shown => absurd shown Bool.false_ne_true, fun shown => absurd shown Bool.false_ne_true⟩

theorem withPosts_step (consistent : s.Consistent) (found : s.focus handle = some focus)
    (prepared : Forest.Rel (Prepared topView) (withShown true (.tree focus.node focus.children)) forest)
    (allPosted : AllPosted delivered forest)
    (requests : Forest.Rel (Requests order delivered) (withShown true forest) result) :
    (s.withPosts focus result).Consistent ∧
      Forest.Rel (Kept order topView s (s.withPosts focus result) op) (withShown true s.views)
        (s.withPosts focus result).views := by
  let posted := (result.toList.filter fun view => view.2).map fun view => view.1.handle
  let t := s.withPosts focus result
  have isViews : t.views = plugFirst focus (result.map Prod.fst) := posts_views posted _
  have members : result.All fun view => view ∈ result.toList := all_iff_mem.2 fun _ member => member
  let Paints (view y : PServerView × Bool) : Prop := ∃ x : PServerView × Bool,
    Prepared topView view x.1 ∧ Requests order delivered x y ∧
      (x.2 → x.1.damageReg.isSome → x.1.activeDamageReg = none → y.2 = x.1.paint delivered →
        t.Posted view.1.handle)
  have chain : Forest.Rel Paints (withShown true (.tree focus.node focus.children)) result :=
    (rel_withShown prepared true).comp
    (((requests.with_left allPosted).with_left (withShown_visible true forest)).with_right members) (by
      intro view x y prepared ⟨⟨visible, canPaint, requests⟩, member⟩
      refine ⟨x, prepared, requests, ?_⟩
      intro shown pending free isPosted
      rcases canPaint shown pending free with ⟨client, notUpdating, delivers⟩
      have isShown : x.1.hideCount = 0 := by simpa [PServerView.isVisible] using visible shown
      have hasClient : x.1.clientHandle.isNone = false := by
        cases isClient : x.1.clientHandle with
        | none =>
          rw [isClient] at client
          cases client
        | some _ => rfl
      have paints : y.2 = true := by
        rw [isPosted]
        unfold paint
        rw [isShown, notUpdating, delivers, hasClient]
        rfl
      have inPosted : view.1.handle ∈ posted := by
        rw [← prepared.handle, ← requests.handle]
        exact mem_map_of_mem (mem_filter.2 ⟨member, paints⟩)
      exact posts_posted inPosted _)
  have kept : Forest.Rel (Kept order topView s t op) (withShown true (.tree focus.node focus.children))
      (result.map Prod.fst) := by
    apply chain.map_right
    intro ⟨view, b⟩ y ⟨x, prepared, requests, posts⟩
    exact kept_of_prepared prepared requests posts
  have linked : Forest.Rel (Linked t) (.tree focus.node focus.children) (result.map Prod.fst) := by
    have shownLinked : Forest.Rel (fun view y => Linked t view.1 y)
        (withShown true (.tree focus.node focus.children)) (result.map Prod.fst) := by
      apply chain.map_right
      intro ⟨view, b⟩ y ⟨x, prepared, requests, posts⟩
      exact linked_of_prepared prepared requests posts
    exact rel_of_withShown shownLinked fun _ _ _ linked => linked
  have linkedSame (x : PServerView) : Linked t x x := ⟨rfl, .inl⟩
  constructor
  · apply consistent.step
    · show Forest.Rel _ s.views t.views
      rw [isViews]
      exact plugFirst_rel linkedSame found linked
    · exact fun _ awaits => AwaitsPaint.posts
        (s := { s with views := plugFirst focus (result.map Prod.fst) }) awaits posted
  · show Forest.Rel (Kept order topView s t op) _ t.views
    rw [isViews]
    exact plugFirst_withShown kept_same (fun x y _ => kept_hidden x y) found kept true

theorem requests_clear {forest : Forest (PServerView × Bool)}
    (requests : Forest.Rel (Requests order delivered) forest result) :
    Forest.Rel (Requests order delivered) forest
      (result.map fun view => (view.1.clearDirtyRegFlags, view.2)) :=
  requests.map_right _ fun _ _ requests => ⟨requests.handle, requests.effect⟩

theorem updateRegions_step (consistent : s.Consistent) (found : s.focus handle = some focus) :
    ({ s with views := plugFirst focus ((settleRegions order focus.parent focus.node
        focus.children focus.rest).map clearDirtyRegFlags) } : PaintState).Consistent ∧
      Forest.Rel (Kept order topView s { s with views := plugFirst focus ((settleRegions order
        focus.parent focus.node focus.children focus.rest).map clearDirtyRegFlags) } op)
        (withShown true s.views) (plugFirst focus ((settleRegions order focus.parent focus.node
          focus.children focus.rest).map clearDirtyRegFlags)) := by
  have settles : Forest.Rel Settles (withShown true (.tree focus.node focus.children))
      ((settleRegions order focus.parent focus.node focus.children focus.rest).map clearDirtyRegFlags) :=
    (settleRegions_settles focus.parent focus.node focus.children focus.rest).map_right _
      fun _ y settles => Settles.trans settles (clearDirtyRegFlags_stays y)
  generalize (settleRegions order focus.parent focus.node focus.children focus.rest).map
    clearDirtyRegFlags = settled at settles
  constructor
  · apply consistent.step
    · apply plugFirst_rel (fun x => ⟨rfl, .inl⟩) found
      apply rel_of_withShown settles
      intro x b y settles
      refine ⟨settles.handle, fun isActive => .inl ?_⟩
      rcases settles.active with same | none'
      · rw [← same]
        exact isActive
      · rw [none'] at isActive
        cases isActive
    · exact fun _ awaits => awaits
  · apply plugFirst_withShown kept_same (fun x y _ => kept_hidden x y) found
    apply settles.imp
    intro ⟨view, b⟩ y settles
    cases b with
    | false => exact kept_hidden view y
    | true => exact .of_grows (settles.shown rfl).toGrows true

theorem Outstanding.eraseIdx {k : Nat} {request : UpdateRequest} (outstanding : s.Outstanding handle id)
    (isRequest : s.requests[k]? = some request) (other : request ≠ .endUpdate handle id)  :
    ({ s with requests := s.requests.eraseIdx k } : PaintState).Outstanding handle id := by
  rcases outstanding with flies | paints | ends
  · exact .inl flies
  · exact .inr (.inl paints)
  · right
    right
    rcases mem_iff_getElem?.1 ends with ⟨j, isEnd⟩
    show UpdateRequest.endUpdate handle id ∈ s.requests.eraseIdx k
    rw [mem_eraseIdx_iff_getElem?]
    refine ⟨j, ?_, isEnd⟩
    rintro rfl
    rw [isRequest] at isEnd
    exact other (some.inj isEnd)

theorem eraseIdx_awaits {k : Nat} {request : UpdateRequest} (isRequest : s.requests[k]? = some request)
    (other : ∀ id, s.activePaint handle = some id → request ≠ .endUpdate handle id)
    (awaits : s.AwaitsPaint handle) :
    ({ s with requests := s.requests.eraseIdx k } : PaintState).AwaitsPaint handle := by
  rcases awaits with ⟨id, isActive, outstanding⟩
  exact ⟨id, isActive, outstanding.eraseIdx isRequest (other id isActive)⟩

theorem endUpdate_spec (view : PServerView) (delivered : Nat → Bool)
    (posts : view.damageReg.isSome → view.isVisible ∧ view.clientHandle.isSome ∧ delivered view.handle) :
    (view.endUpdate delivered).1.handle = view.handle ∧
      (view.endUpdate delivered).1.activeDamageReg = view.damageReg ∧
      (view.endUpdate delivered).2 = view.damageReg.isSome := by
  unfold endUpdate
  cases damage : view.damageReg with
  | none => exact ⟨rfl, rfl, rfl⟩
  | some damageReg =>
    rw [damage] at posts
    rcases posts rfl with ⟨visible, client, delivers⟩
    have isShown : view.hideCount = 0 := by simpa [PServerView.isVisible] using visible
    refine ⟨rfl, rfl, ?_⟩
    cases isClient : view.clientHandle with
    | none =>
      rw [isClient] at client
      cases client
    | some _ =>
      unfold paint
      simp only [isShown, delivers]
      rfl

theorem endUpdate_step {k : Nat} (consistent : s.Consistent) (found : s.focus handle = some focus)
    (isRequest : s.requests[k]? = some (.endUpdate handle id))
    (own : focus.node.activeDamageReg.isSome → s.activePaint handle = some id)
    (posts : focus.node.damageReg.isSome → focus.node.isVisible ∧ focus.node.clientHandle.isSome ∧
      delivered focus.node.handle) :
    let view := focus.node.endUpdate delivered
    let ended : PaintState :=
      { s with requests := s.requests.eraseIdx k, views := focus.plug view.1 focus.children }
    let t := if view.2 then ended.post view.1.handle else ended
    t.Consistent ∧ Forest.Rel (Kept order topView s t (.dispatch k delivered)) (withShown true s.views) t.views := by
  intro view ended t
  rcases endUpdate_spec focus.node delivered posts with ⟨sameHandle, isActive, isPosted⟩
  rcases focus?_spec found with ⟨isNamed, _, _⟩
  have isViews : t.views = focus.plug view.1 focus.children := by
    show (if view.2 then ended.post view.1.handle else ended).views = _
    split <;> rfl
  have named : view.1.handle = handle := sameHandle.trans isNamed
  have postedHere (pending : focus.node.damageReg.isSome) : t.Posted handle := by
    have posted : view.2 = true := isPosted.trans pending
    show (if view.2 then ended.post view.1.handle else ended).Posted handle
    rw [if_pos posted, named]
    exact post_posted ended handle
  have awaitsOther (other : Nat) (notHere : other ≠ handle) (awaits : s.AwaitsPaint other) :
      t.AwaitsPaint other := by
    have kept : ended.AwaitsPaint other := eraseIdx_awaits (s := s) isRequest (fun id' _ same => by
      have equal := (UpdateRequest.endUpdate.inj same).1
      exact notHere equal.symm) awaits
    show (if view.2 then ended.post view.1.handle else ended).AwaitsPaint other
    split
    · exact kept.post _
    · exact kept
  have changed : Forest.Rel (fun x y => y.handle = x.handle ∧ (y = x ∨ y = view.1)) s.views t.views := by
    rw [isViews]
    exact plug_rel (fun x => ⟨rfl, .inl rfl⟩) found
      (.cons ⟨sameHandle, .inr rfl⟩ (.refl (fun x => ⟨rfl, .inl rfl⟩) _) .nil)
  have distinct : (t.views.toList.map PServerView.handle).Nodup := by
    rw [← changed.map_toList PServerView.handle PServerView.handle fun _ _ both => both.1.symm]
    exact consistent.distinct
  constructor
  · refine ⟨distinct, all_iff_mem.2 ?_⟩
    intro y member hasActive
    have here : view.1 ∈ t.views.toList := by
      rw [isViews]
      exact mem_plug found _ _
    by_cases isHere : y.handle = handle
    · have same : y = view.1 := inj_on_of_nodup_map distinct member here (isHere.trans named.symm)
      rw [same] at hasActive
      have pending : focus.node.damageReg.isSome := by
        rw [← isActive]
        exact hasActive
      rw [isHere]
      exact (postedHere pending).awaits
    · rcases changed.mem_right member with ⟨x, isView, _, same | same⟩
      · rw [same] at isHere hasActive ⊢
        exact awaitsOther _ isHere (all_iff_mem.1 consistent.awaits x isView hasActive)
      · rw [same] at isHere
        exact absurd named isHere
  · rw [isViews]
    have kept : Forest.Rel (Kept order topView s t (.dispatch k delivered))
        (withShown true (.tree focus.node focus.children)) (.tree view.1 focus.children) := by
      refine .cons ⟨?_, ?_⟩ ?_ .nil
      · intro _ _ damageReg isDamage
        have pending : focus.node.damageReg.isSome := by
          rw [show focus.node.damageReg = some damageReg from isDamage]
          rfl
        refine ⟨damageReg, Set.inter_subset_left, .inr ⟨?_, .inl (isActive.trans isDamage)⟩⟩
        show t.Posted focus.node.handle
        rw [isNamed]
        exact postedHere pending
      · intro _ damageReg wasActive
        have hasActive : focus.node.activeDamageReg.isSome := by
          rw [show focus.node.activeDamageReg = some damageReg from wasActive]
          rfl
        refine .inr ⟨k, delivered, id, rfl, ?_, ?_⟩
        · show _ = some (UpdateRequest.endUpdate focus.node.handle id)
          rw [isNamed]
          exact isRequest
        · show s.activePaint focus.node.handle = _
          rw [isNamed]
          exact own hasActive
      · exact withShown_rel (.refl (r := Eq) (fun _ => rfl) _) (fun x b _ equal => equal ▸ kept_same x b) _
    exact plugFirst_withShown kept_same (fun x y _ => kept_hidden x y) found kept true

theorem handlePaint_awaits {k : Nat} {message : PaintMessage} (isMessage : s.inFlight[k]? = some message)
    (free : s.painting message.handle = none) (awaits : s.AwaitsPaint handle) :
    ({ s with
      inFlight := s.inFlight.eraseIdx k
      painting := update s.painting message.handle (some message.id)
      requests := s.requests ++ [.beginUpdate message.handle message.id] } : PaintState).AwaitsPaint handle := by
  rcases awaits with ⟨id, isActive, flies | paints | ends⟩
  · rcases mem_iff_getElem?.1 flies with ⟨j, isHere⟩
    refine ⟨id, isActive, ?_⟩
    by_cases same : j = k
    · subst same
      obtain rfl := some.inj (isMessage.symm.trans isHere)
      exact .inr (.inl (update_self ..))
    · exact .inl (mem_eraseIdx_iff_getElem?.2 ⟨j, same, isHere⟩)
  · refine ⟨id, isActive, .inr (.inl ?_)⟩
    have other : handle ≠ message.handle := by
      rintro rfl
      rw [free] at paints
      cases paints
    exact (update_of_ne other _ _).trans paints
  · exact ⟨id, isActive, .inr (.inr (mem_append_left _ ends))⟩

theorem finishPaint_awaits {handle' : Nat} (paints : s.painting handle' = some id)
    (awaits : s.AwaitsPaint handle) :
    ({ s with
      painting := update s.painting handle' none
      requests := s.requests ++ [.endUpdate handle' id] } : PaintState).AwaitsPaint handle := by
  rcases awaits with ⟨id', isActive, flies | isPainting | ends⟩
  · exact ⟨id', isActive, .inl flies⟩
  · refine ⟨id', isActive, ?_⟩
    by_cases same : handle = handle'
    · subst same
      obtain rfl := some.inj (paints.symm.trans isPainting)
      exact .inr (.inr (mem_append_right _ mem_cons_self))
    · exact .inr (.inl ((update_of_ne same _ _).trans isPainting))
  · exact ⟨id', isActive, .inr (.inr (mem_append_left _ ends))⟩

theorem step_spec (consistent : s.Consistent) (meets : PostsPaint order topView s op)
    (applies : s.step order topView op = some t) :
    t.Consistent ∧ Forest.Rel (Kept order topView s t op) (withShown true s.views) t.views := by
  cases op with
  | invalidate handle rect =>
    rcases map_eq_some_iff.1 applies with ⟨focus, found, rfl⟩
    exact step_of_grows consistent (plug_rel .refl found
      (.cons (invalidate_stays focus.node rect).toGrows (.refl .refl _) .nil)) fun _ awaits => awaits
  | invalidateAll handle =>
    rcases map_eq_some_iff.1 applies with ⟨focus, found, rfl⟩
    have grows := (invalidateAll_stays (.tree focus.node focus.children)).imp fun _ _ stays => stays.toGrows
    exact step_of_grows consistent (plugFirst_rel .refl found grows) fun _ awaits => awaits
  | updateRegions handle requestPaint delivered =>
    rcases map_eq_some_iff.1 applies with ⟨focus, found, rfl⟩
    cases requestPaint with
    | false => exact updateRegions_step consistent found
    | true =>
      have settles : Forest.Rel Settles (withShown true (.tree focus.node focus.children))
          (settleRegions order focus.parent focus.node focus.children focus.rest) :=
        settleRegions_settles focus.parent focus.node focus.children focus.rest
      have prepared : Forest.Rel (Prepared topView) (withShown true (.tree focus.node focus.children))
          (flushTopView topView (settleRegions order focus.parent focus.node focus.children focus.rest)) :=
        flushTopView_prepared settles
      exact withPosts_step consistent found prepared (meets focus found)
        (requests_clear (requestPaintIfNeeded_requests _))
  | requestPaintIfNeeded handle delivered =>
    rcases map_eq_some_iff.1 applies with ⟨focus, found, rfl⟩
    have prepared : Forest.Rel (Prepared topView) (withShown true (.tree focus.node focus.children))
        (.tree focus.node focus.children) :=
      withShown_rel (.refl Stays.refl _) (fun x b y stays => (Settles.of_stays stays b).prepared topView) true
    exact withPosts_step consistent found prepared (meets focus found) (requestPaintIfNeeded_requests _)
  | showView handle doShow =>
    rcases map_eq_some_iff.1 applies with ⟨views, shows, rfl⟩
    exact step_of_grows consistent (showView_grows shows) fun _ awaits => awaits
  | dispatch k delivered =>
    rw [step] at applies
    split at applies
    · cases applies
    · rename_i request isRequest
      split at applies
      · cases applies
      · cases found : s.focus request.view with
        | none =>
          simp only [found] at applies
          obtain rfl := some.inj applies
          have notNamed := focus?_none found
          constructor
          · refine ⟨consistent.distinct, all_iff_mem.2 ?_⟩
            intro view member hasActive
            have awaits := all_iff_mem.1 consistent.awaits view member hasActive
            refine eraseIdx_awaits isRequest ?_ awaits
            rintro id _ rfl
            exact notNamed view member rfl
          · exact withShown_rel (.refl Grows.refl s.views) (fun _ b _ grows => .of_grows grows b) true
        | some focus =>
          simp only [found] at applies
          cases request with
          | beginUpdate handle id =>
            obtain rfl := some.inj applies
            apply step_of_grows consistent
            · exact plug_rel .refl found
                (.cons (beginUpdate_stays focus.node).toGrows (.refl .refl _) .nil)
            · intro other awaits
              refine eraseIdx_awaits (s := s) isRequest ?_ awaits
              intro id' _ same
              cases same
          | endUpdate handle id =>
            rw [PostsPaint] at meets
            simp only [isRequest] at meets
            rcases meets focus found with ⟨own, posts⟩
            obtain rfl := some.inj applies
            exact endUpdate_step consistent found isRequest own posts
  | handlePaint k =>
    rw [step] at applies
    split at applies
    · cases applies
    · rename_i message isMessage
      split at applies
      · cases applies
      · rename_i free
        obtain rfl := some.inj applies
        exact step_of_grows consistent (.refl .refl _) fun _ awaits =>
          handlePaint_awaits isMessage free awaits
  | finishPaint handle =>
    rw [step] at applies
    split at applies
    · cases applies
    · rename_i id paints
      obtain rfl := some.inj applies
      exact step_of_grows consistent (.refl .refl _) fun _ awaits => finishPaint_awaits paints awaits

/-! ## Runs -/

/-- Views with their own names, none of which has active damage yet. -/
structure Fresh (s : PaintState) : Prop where
  distinct : (s.views.toList.map PServerView.handle).Nodup
  idle : s.views.All fun view => view.activeDamageReg = none

theorem Fresh.consistent (fresh : s.Fresh) : s.Consistent where
  distinct := fresh.distinct
  awaits := fresh.idle.imp fun view idle hasActive => by
    rw [idle] at hasActive
    cases hasActive

theorem reaches_consistent (fresh : s.Fresh)
    (run : (paintSystem order topView).Reaches (PostsPaint order topView) s t) : t.Consistent :=
  run.invariant Consistent fresh.consistent fun consistent meets applies =>
    (step_spec consistent meets applies).1

/-- Where every damage that is handed over is posted, active damage always waits for a message
that is under way, so that the damage recorded meanwhile can be requested now or when that
update ends; and no step loses the damage of a view that is shown. -/
theorem damage_never_stuck (order : StdSort) (topView : Nat) (fresh : s.Fresh)
    (run : (paintSystem order topView).Reaches (PostsPaint order topView) s t) :
    (∀ view ∈ t.views.toList, view.activeDamageReg.isSome → t.AwaitsPaint view.handle) ∧
    (∀ view ∈ t.views.toList, view.damageReg.isSome →
      view.activeDamageReg = none ∨ t.AwaitsPaint view.handle) ∧
    ∀ op u, PostsPaint order topView t op → t.step order topView op = some u →
      Forest.Rel (Kept order topView t u op) (withShown true t.views) u.views := by
  have consistent := reaches_consistent fresh run
  have awaits := all_iff_mem.1 consistent.awaits
  refine ⟨awaits, ?_, fun op u meets applies => (step_spec consistent meets applies).2⟩
  intro view member _
  cases active : view.activeDamageReg with
  | none => exact .inl rfl
  | some damageReg =>
    right
    apply awaits view member
    rw [active]
    rfl

/-! A window of a client on the screen; part of it is invalidated and painted. -/

def window : PServerView := .new 2 ⟨1, 1, 6, 6⟩ ⟨0, 0⟩ 0 0 (some 7)

def desktop (view : PServerView) : PaintState where
  views := .tree (.new 1 ⟨0, 0, 9, 9⟩ ⟨0, 0⟩ 0 0 none) (.tree view .nil)
  inFlight := []
  painting := fun _ => none
  requests := []
  activePaint := fun _ => none
  nextId := 0

theorem desktop_fresh : (desktop window).Fresh := ⟨by decide, ⟨rfl, ⟨rfl, trivial, trivial⟩, trivial⟩⟩

def invalidated : PServerView := { window with damageReg := some [⟨0, 0, 2, 2⟩] }

/-- The window's damage is active. -/
def requested : PServerView := { window with activeDamageReg := some [⟨0, 0, 2, 2⟩] }

theorem invalidate_window (order : StdSort) :
    (desktop window).step order 1 (.invalidate 2 ⟨0, 0, 2, 2⟩) = some (desktop invalidated) := rfl

theorem request_window (order : StdSort) : (desktop invalidated).step order 1
    (.requestPaintIfNeeded 2 fun _ => true) = some ((desktop requested).post 2) := rfl

theorem damage_of_window_never_stuck :
    (desktop window).Fresh ∧
    (paintSystem insertionOrder 1).Reaches (PostsPaint insertionOrder 1) (desktop window) ((desktop requested).post 2) ∧
    ∀ view ∈ ((desktop requested).post 2).views.toList, view.activeDamageReg.isSome →
      ((desktop requested).post 2).AwaitsPaint view.handle := by
  have first : (paintSystem insertionOrder 1).Reaches (PostsPaint insertionOrder 1) (desktop window) (desktop invalidated) :=
    .single (show PostsPaint insertionOrder 1 (desktop window) (.invalidate 2 ⟨0, 0, 2, 2⟩) from trivial)
      (invalidate_window insertionOrder)
  have posted : PostsPaint insertionOrder 1 (desktop invalidated) (.requestPaintIfNeeded 2 fun _ => true) := by
    intro focus found
    obtain rfl := some.inj found
    exact ⟨fun _ _ _ => ⟨rfl, rfl, rfl⟩, trivial, trivial⟩
  have run := first.next (.requestPaintIfNeeded 2 fun _ => true) posted (request_window insertionOrder)
  exact ⟨desktop_fresh, run, (damage_never_stuck insertionOrder 1 desktop_fresh run).1⟩

/-! ## A message that the client's port does not take -/

theorem damage_stuck : ¬∀ (order : StdSort) (topView : Nat) (s t : PaintState), s.Fresh →
    (paintSystem order topView).Reaches anyStep s t →
    ∀ view ∈ t.views.toList, view.activeDamageReg.isSome → ∃ id, t.Outstanding view.handle id := by
  intro always
  have first : (paintSystem insertionOrder 1).Reaches anyStep (desktop window) (desktop invalidated) :=
    .single (show anyStep (desktop window) (.invalidate 2 ⟨0, 0, 2, 2⟩) from trivial)
      (invalidate_window insertionOrder)
  have run := first.next (u := desktop requested) (.requestPaintIfNeeded 2 fun _ => false) trivial rfl
  have waits := always insertionOrder 1 _ _ desktop_fresh run requested (by decide) rfl
  rcases waits with ⟨id, flies | paints | ends⟩
  · cases flies
  · cases paints
  · cases ends

end PaintState

end PadOS.Gui
