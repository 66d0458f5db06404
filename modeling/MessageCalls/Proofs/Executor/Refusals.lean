import MessageCalls.Proofs.Executor.Aborting
/-!
# MessageCalls.Proofs.Executor.Refusals

Runs over accounts that may refuse to close a snapshot. The layer of a refused snapshot is left
open, with writes of its frame in it, and the frames further out run on above it.

**Whatever is refused, the layers that stood beneath and the logs emitted before stay**
(`Executor.Activity.toRetains`): a checkpoint taken further out can still be settled, and settling
it closes everything that was left open above (`Executor.settlesOver_settle`). And **no refusal is
swallowed** (`Executor.Activity.accepted_of_fatal_eq_none`): each of them is latched, and nothing
but the start of a transaction forgets a latched condition.
-/

namespace MessageCalls

/-- The answer of the accounts when an open snapshot is to be closed. -/
def Setting.closingResult (setting : Setting) (closing : Overlay.Closing) (id : UInt64) :
    Except Abort Unit :=
  if setting.refuses closing id then .error .unevenSnapshot else .ok ()

namespace Moment

/-- A checkpoint is to be settled, and that fails. -/
def isRefused (m : Moment) : Bool :=
  match m.act with
  | .settled _ (.error _) => true
  | _ => false

/-- A checkpoint is settled in this way. -/
def closed? (m : Moment) : Option Overlay.Closing :=
  match m.act with
  | .settled closing (.ok _) => some closing
  | _ => none

end Moment

namespace Executor

/-- From `s` to `t` the layers beneath the innermost one and the logs emitted before stay; further
layers may have been left open above them. -/
structure Retains (s t : Executor) : Prop where
  stored : t.accounts.stored = s.accounts.stored
  layers : s.accounts.layers <:+ t.accounts.layers
  logs : s.tx.logs <+: t.tx.logs
  depth : t.tx.depth = s.tx.depth
  isStatic : t.isStatic = s.isStatic

variable {setting : Setting} {frames : List Frame} {s t u : Executor} {moments : List Moment}

namespace Retains

theorem refl (s : Executor) : Retains s s :=
  ⟨rfl, List.suffix_refl _, List.prefix_refl _, rfl, rfl⟩

theorem trans (h : Retains s t) (h' : Retains t u) : Retains s u :=
  ⟨h'.stored.trans h.stored, h.layers.trans h'.layers, h.logs.trans h'.logs,
    h'.depth.trans h.depth, h'.isStatic.trans h.isStatic⟩

theorem checkpoint (s : Executor) : Retains s s.checkpoint.2 :=
  ⟨rfl, List.suffix_cons _ _, List.prefix_refl _, rfl, rfl⟩

end Retains

theorem Extends.toRetains (h : Extends s t) : Retains s t :=
  ⟨h.stored, h.layers ▸ List.suffix_refl _, h.logs, h.depth, h.isStatic⟩

theorem Unchanged.toRetains (h : Unchanged s t) : Retains s t := h.toExtends.toRetains

/-! ### Settling -/

/-- What it means to settle in `t`, and end in `u`, a checkpoint that was taken in `s`, if the
accounts may refuse. -/
structure SettlesOver (setting : Setting) (s t : Executor) (closing : Overlay.Closing)
    (result : Except Abort Unit) (u : Executor) : Prop where
  result_eq : result = setting.closingResult closing s.accounts.nextId
  fatal : u.fatal = t.fatal
  retains : Retains s u
  /-- A restore that is not refused undoes whatever was done and whatever was left open. -/
  restored : closing = .restore → setting.refuses .restore s.accounts.nextId = false →
    Unchanged s u

theorem take_logs (h : Retains s.checkpoint.2 t) :
    t.tx.logs.take s.checkpoint.1.logs = s.tx.logs :=
  (List.prefix_iff_eq_take.mp h.logs).symm

/-- The snapshot of a checkpoint is closed with everything left open above it, or else refused. -/
theorem close_checkpoint_cases (setting : Setting) {above : List Layer}
    (hlayers : t.accounts.layers =
      above ++ ⟨s.accounts.nextId, s.accounts.current⟩ :: s.accounts.layers)
    (closing : Overlay.Closing) :
    (setting.refuses closing s.accounts.nextId = true ∧
      t.close setting s.checkpoint.1.handle closing = (.error .unevenSnapshot, t)) ∨
    (setting.refuses closing s.accounts.nextId = false ∧
      t.close setting s.checkpoint.1.handle closing =
        (.ok (), { t.record (.closing closing s.accounts.nextId) with
          accounts := t.accounts.closeMany closing (above.length + 1) })) := by
  have hid : s.checkpoint.1.handle.id = s.accounts.nextId := rfl
  have hclose : t.accounts.close s.checkpoint.1.handle closing =
      .ok (t.accounts.closeMany closing (above.length + 1)) :=
    Overlay.close_buried hlayers rfl rfl closing
  unfold close
  rw [hid]
  cases setting.refuses closing s.accounts.nextId with
  | true => exact Or.inl ⟨rfl, rfl⟩
  | false =>
      refine Or.inr ⟨rfl, ?_⟩
      simp only [Bool.false_eq_true, if_false, accounts_record, hclose]

theorem closingResult_of_refused {closing : Overlay.Closing} {id : UInt64}
    (h : setting.refuses closing id = true) :
    setting.closingResult closing id = .error .unevenSnapshot := if_pos h

theorem closingResult_of_accepted {closing : Overlay.Closing} {id : UInt64}
    (h : setting.refuses closing id = false) : setting.closingResult closing id = .ok () :=
  if_neg (by simp [h])

/-- **A checkpoint can be settled whatever was left open above it**, unless the accounts refuse. -/
theorem settlesOver_settle (setting : Setting) (h : Retains s.checkpoint.2 t)
    (closing : Overlay.Closing) :
    SettlesOver setting s t closing (t.settle setting s.checkpoint.1 closing).1
      (t.settle setting s.checkpoint.1 closing).2 := by
  obtain ⟨above, habove⟩ := h.layers
  have hretains := (Retains.checkpoint s).trans h
  cases closing with
  | commit =>
      rw [settle]
      rcases close_checkpoint_cases setting habove.symm .commit with
        ⟨hrefused, hclose⟩ | ⟨haccepted, hclose⟩
      · rw [hclose]
        exact ⟨(closingResult_of_refused hrefused).symm, rfl, hretains,
          fun hrestore => by cases hrestore⟩
      · rw [hclose]
        have hrest := Overlay.layers_closeMany habove.symm .commit
        have hstored := Overlay.stored_closeMany t.accounts .commit (above.length + 1)
        exact ⟨(closingResult_of_accepted haccepted).symm, rfl,
          ⟨hstored.trans h.stored, hrest ▸ List.suffix_refl _, hretains.logs, h.depth, h.isStatic⟩,
          fun hrestore => by cases hrestore⟩
  | restore =>
      -- The logs are dropped in any case, which leaves those emitted before.
      have hlogs := take_logs h
      let dropped : Executor := { t with tx := t.tx.truncateLogs s.checkpoint.1.logs }
      have hbeneath : dropped.accounts.layers =
          above ++ ⟨s.accounts.nextId, s.accounts.current⟩ :: s.accounts.layers := habove.symm
      rw [settle]
      rcases close_checkpoint_cases setting hbeneath .restore with
        ⟨hrefused, hclose⟩ | ⟨haccepted, hclose⟩
      · rw [hclose]
        refine ⟨(closingResult_of_refused hrefused).symm, rfl,
          ⟨h.stored, hretains.layers, hlogs ▸ List.prefix_refl _, h.depth, h.isStatic⟩,
          fun _ haccepted => ?_⟩
        rw [hrefused] at haccepted
        cases haccepted
      · rw [hclose, Overlay.closeMany_restore hbeneath]
        have hunchanged : Unchanged s
            { dropped.record (.closing .restore s.accounts.nextId) with
              accounts := { dropped.accounts with
                current := s.accounts.current
                layers := s.accounts.layers } } :=
          ⟨h.stored, rfl, rfl, hlogs, h.depth, h.isStatic⟩
        exact ⟨(closingResult_of_accepted haccepted).symm, rfl, hunchanged.toRetains,
          fun _ _ => hunchanged⟩

/-- The same, ending in `u`, where a refusal is latched. -/
structure LatchesOver (setting : Setting) (s t : Executor) (closing : Overlay.Closing)
    (u : Executor) : Prop where
  fatal : u.fatal = if setting.refuses closing s.accounts.nextId then
    some (t.fatal.getD .unevenSnapshot) else t.fatal
  retains : Retains s u
  restored : closing = .restore → setting.refuses .restore s.accounts.nextId = false →
    Unchanged s u

theorem latchesOver_settleOrLatch (setting : Setting) (h : Retains s.checkpoint.2 t)
    (closing : Overlay.Closing) :
    LatchesOver setting s t closing (t.settleOrLatch setting s.checkpoint.1 closing) := by
  obtain ⟨hresult, hfatal, hretains, hrestored⟩ := settlesOver_settle setting h closing
  unfold settleOrLatch
  generalize t.settle setting s.checkpoint.1 closing = settled at *
  obtain ⟨result, u⟩ := settled
  dsimp only at *
  cases hrefused : setting.refuses closing s.accounts.nextId with
  | true =>
      rw [closingResult_of_refused hrefused] at hresult
      subst hresult
      refine ⟨?_, hretains.trans (Unchanged.latch u _).toRetains, fun hclosing haccepted => ?_⟩
      · rw [hrefused, if_pos rfl, fatal_latch, hfatal]
      · rw [hclosing, haccepted] at hrefused
        cases hrefused
  | false =>
      rw [closingResult_of_accepted hrefused] at hresult
      subst hresult
      refine ⟨?_, hretains, hrestored⟩
      rw [hrefused]
      exact hfatal

/-- Where nothing is latched in the end, nothing was refused. -/
theorem LatchesOver.accepted {closing : Overlay.Closing} (h : LatchesOver setting s t closing u)
    (hnone : u.fatal = none) :
    setting.refuses closing s.accounts.nextId = false ∧ t.fatal = none := by
  have hfatal := h.fatal
  cases hrefused : setting.refuses closing s.accounts.nextId with
  | true =>
      rw [hrefused, if_pos rfl, hnone] at hfatal
      cases hfatal
  | false =>
      rw [hrefused, if_neg (by simp), hnone] at hfatal
      exact ⟨rfl, hfatal.symm⟩

/-- What is latched in the end was latched before, or else is the refusal. -/
theorem LatchesOver.latched {closing : Overlay.Closing} (h : LatchesOver setting s t closing u)
    {cause : Abort} (hcause : u.fatal = some cause) :
    t.fatal = some cause ∨ t.fatal = none ∧
      setting.refuses closing s.accounts.nextId = true ∧ cause = .unevenSnapshot := by
  have hfatal := h.fatal
  rw [hcause] at hfatal
  cases hrefused : setting.refuses closing s.accounts.nextId with
  | true =>
      rw [hrefused, if_pos rfl] at hfatal
      cases hbefore : t.fatal with
      | some first =>
          rw [hbefore, Option.getD_some] at hfatal
          exact Or.inl hfatal.symm
      | none =>
          rw [hbefore, Option.getD_none] at hfatal
          exact Or.inr ⟨rfl, rfl, Option.some.inj hfatal⟩
  | false =>
      rw [hrefused, if_neg (by simp)] at hfatal
      exact Or.inl hfatal.symm

/-! ### Leaving a frame -/

/-- The closing that settles a frame which reported an exit. -/
def closingOf (s : Executor) (exit : Exit) : Overlay.Closing :=
  if (s.finalExit exit).isSuccess then .commit else .restore

/-- How a frame that was entered in `s` is left in `u`, if the accounts may refuse. -/
structure LeavesOver (setting : Setting) (s u : Executor) (exit : Exit) (output : Bytes)
    (nrgLeft : Nrg) (outcome : CallOutcome) (t : Executor) : Prop where
  retains : Retains s t
  accepted : setting.refuses (u.closingOf exit) s.accounts.nextId = false →
    outcome = (u.finalExit exit).outcome output nrgLeft ∧ t.fatal = (u.finalExit exit).abort?
  /-- The condition latched before stays, but the outcome tells of the refusal. -/
  refused : setting.refuses (u.closingOf exit) s.accounts.nextId = true →
    outcome = .failed (.aborted .unevenSnapshot) 0 ∧
      t.fatal = some ((u.finalExit exit).abort?.getD .unevenSnapshot)

theorem leavesOver_leave (setting : Setting) (h : Retains s.checkpoint.2 u) (exit : Exit)
    (output : Bytes) (nrgLeft : Nrg) :
    LeavesOver setting s u exit output nrgLeft
      (u.leave setting s.checkpoint.1 exit output nrgLeft).1
      (u.leave setting s.checkpoint.1 exit output nrgLeft).2 := by
  have hannounced := (unchanged_announce u (u.finalExit exit) output).toRetains
  have hsettles := settlesOver_settle setting (h.trans hannounced) (u.closingOf exit)
  have hclosing : (if (u.finalExit exit).isSuccess then Overlay.Closing.commit else .restore) =
      u.closingOf exit := rfl
  rw [leave_eq, hclosing]
  generalize (u.announce (u.finalExit exit) output).settle setting s.checkpoint.1
    (u.closingOf exit) = settled at hsettles ⊢
  obtain ⟨result, t⟩ := settled
  obtain ⟨hresult, hfatal, hretains, -⟩ := hsettles
  dsimp only at hresult hfatal hretains
  rw [fatal_announce] at hfatal
  by_cases hrefused : setting.refuses (u.closingOf exit) s.accounts.nextId = true
  · rw [closingResult_of_refused hrefused] at hresult
    subst hresult
    refine ⟨hretains.trans (Unchanged.latch t _).toRetains, fun haccepted => ?_, fun _ => ⟨rfl, ?_⟩⟩
    · rw [hrefused] at haccepted
      cases haccepted
    · rw [fatal_latch, hfatal]
  · rw [closingResult_of_accepted (by simpa using hrefused)] at hresult
    subst hresult
    exact ⟨hretains, fun _ => ⟨rfl, hfatal⟩, fun h => absurd h hrefused⟩

/-- The moment at which a frame is settled tells how that ends. -/
theorem settle_eq_closingResult (setting : Setting) (h : Retains s.checkpoint.2 u)
    (closing : Overlay.Closing) :
    (u.settle setting s.checkpoint.1 closing).1 =
      setting.closingResult closing s.accounts.nextId :=
  (settlesOver_settle setting h closing).result_eq

/-! ### Activities -/

/-- **Whatever is done and whatever is refused, the layers beneath and the logs emitted before
stay.** -/
theorem Activity.toRetains (h : Activity setting frames s moments t) : Retains s t := by
  induction h with
  | andThen first second ih ih' => exact ih.trans ih'
  | log h entry =>
      exact ⟨rfl, List.suffix_refl _, List.prefix_append _ _, rfl, rfl⟩
  | transfer h hpaid => exact (Extends.transfer hpaid).toRetains
  | nonce h hclaimed => exact (Extends.incNonce hclaimed).toRetains
  | entered hfatal hcode hstatic hdepth body ih =>
      -- The depth and the mode may differ inside, and are put back.
      exact ⟨ih.stored, ih.layers, ih.logs, rfl, rfl⟩
  | guarded hfatal opening body ends output nrgLeft ih =>
      exact (leavesOver_leave setting (ih.trans ends.toExtends.toRetains) _ output nrgLeft).retains
  | @givenUp frames s entry h =>
      have hnoted := (Unchanged.note s.checkpoint.2 entry).toRetains
      exact (latchesOver_settleOrLatch setting hnoted .restore).retains
  | _ => exact ⟨rfl, List.suffix_refl _, List.prefix_refl _, rfl, rfl⟩

/-! ### No refusal is swallowed -/

theorem isRefused_leaveChronicle (frames : List Frame) (h : Retains s.checkpoint.2 u) {exit : Exit}
    (haccepted : setting.refuses (u.closingOf exit) s.accounts.nextId = false) (output : Bytes)
    (nrgLeft : Nrg) :
    ∀ m ∈ leaveChronicle setting frames s.checkpoint.1 exit output nrgLeft u,
      m.isRefused = false := by
  have hsettled : (u.settle setting s.checkpoint.1 (u.closingOf exit)).1 = .ok () :=
    (settle_eq_closingResult setting h _).trans (closingResult_of_accepted haccepted)
  intro m hm
  rcases List.mem_append.mp hm with hraised | hleft
  · cases exit <;> simp [raisedBy] at hraised
    subst hraised
    rfl
  · rcases List.mem_cons.mp hleft with rfl | hlast
    · show (⟨frames, u, .settled (u.closingOf exit)
        (u.settle setting s.checkpoint.1 (u.closingOf exit)).1⟩ : Moment).isRefused = false
      rw [hsettled]
      rfl
    · rw [List.mem_singleton.mp hlast]
      rfl

/-- **A refusal is latched, and so is every condition met before**: where nothing is latched in the
end, nothing was before and nothing was refused. -/
theorem Activity.accepted_of_fatal_eq_none (h : Activity setting frames s moments t)
    (hnone : t.fatal = none) : s.fatal = none ∧ ∀ m ∈ moments, m.isRefused = false := by
  induction h with
  | andThen first second ih ih' =>
      obtain ⟨hmiddle, hlater⟩ := ih' hnone
      obtain ⟨hfirst, hearlier⟩ := ih hmiddle
      exact ⟨hfirst, List.forall_mem_append.mpr ⟨hearlier, hlater⟩⟩
  | transfer h hpaid => exact ⟨(transfer_fields hpaid).2.2.symm.trans hnone, by simp⟩
  | nonce h hclaimed => exact ⟨(incNonce_fields hclaimed).2.2.symm.trans hnone, by simp⟩
  | deposit h hfatal a code => exact ⟨hnone, List.forall_mem_singleton.mpr rfl⟩
  | asked frames s room r => exact ⟨hnone, List.forall_mem_singleton.mpr rfl⟩
  | native hfatal a => exact ⟨hnone, List.forall_mem_singleton.mpr rfl⟩
  | entered hfatal hcode hstatic hdepth body ih =>
      exact ⟨hfatal, List.forall_mem_cons.mpr ⟨rfl, (ih hnone).2⟩⟩
  | @guarded frames s t u moments exit hfatal opening body ends output nrgLeft ih =>
      have hretains := body.toRetains.trans ends.toExtends.toRetains
      have hleaves := leavesOver_leave setting hretains exit output nrgLeft
      cases hrefused : setting.refuses (u.closingOf exit) s.accounts.nextId with
      | true =>
          rw [(hleaves.refused hrefused).2] at hnone
          cases hnone
      | false =>
          rw [(hleaves.accepted hrefused).2, abort?_finalExit, ends.fatal_or] at hnone
          obtain ⟨hworked, -⟩ := Option.or_eq_none_iff.mp hnone
          refine ⟨hfatal, List.forall_mem_cons.mpr ⟨rfl, List.forall_mem_append.mpr ⟨?_, ?_⟩⟩⟩
          · exact (ih hworked).2
          · exact isRefused_leaveChronicle frames hretains hrefused output nrgLeft
  | @givenUp frames s entry h =>
      have hnoted := (Unchanged.note s.checkpoint.2 entry).toRetains
      obtain ⟨haccepted, hbefore⟩ :=
        (latchesOver_settleOrLatch setting hnoted .restore).accepted hnone
      have hsettled : (s.checkpoint.2.settle setting s.checkpoint.1 .restore).1 = .ok () :=
        (settle_eq_closingResult setting (.refl _) _).trans (closingResult_of_accepted haccepted)
      refine ⟨hbefore, List.forall_mem_singleton.mpr ?_⟩
      rw [hsettled]
      rfl
  | _ => exact ⟨hnone, by simp⟩

/-! ### The chronicle tells every closing -/

/-- The snapshots that the accounts were asked to close and did not refuse, by their closings. -/
def closings (s : Executor) : List Overlay.Closing := s.journal.toList.filterMap Entry.closing?

theorem closing?_of_isRemark (entry : Entry) (h : entry.isRemark = true) :
    entry.closing? = none := by
  unfold Entry.isRemark at h
  simp_all

theorem pickedClosing_closing? (setting : Setting) (closing : Overlay.Closing) (id : UInt64) :
    pickedClosing Entry.closing? setting closing id =
      if setting.refuses closing id then [] else [closing] := rfl

/-- What a moment of settling tells is what the journal tells. -/
theorem closed?_settled (setting : Setting) (frames : List Frame) (s : Executor)
    (closing : Overlay.Closing) (id : UInt64) :
    [(⟨frames, s, .settled closing (setting.closingResult closing id)⟩ : Moment)].filterMap
        Moment.closed? = pickedClosing Entry.closing? setting closing id := by
  rw [pickedClosing_closing?]
  unfold Setting.closingResult
  by_cases hrefused : setting.refuses closing id = true
  · rw [if_pos hrefused, if_pos hrefused]
    rfl
  · rw [if_neg hrefused, if_neg hrefused]
    rfl

theorem closed?_leaveChronicle (h : Retains s.checkpoint.2 u) (exit : Exit) (output : Bytes)
    (nrgLeft : Nrg) :
    (leaveChronicle setting frames s.checkpoint.1 exit output nrgLeft u).filterMap Moment.closed? =
      pickedClosing Entry.closing? setting (u.closingOf exit) s.accounts.nextId := by
  have hraised : (raisedBy frames exit u).filterMap Moment.closed? = [] := by
    cases exit <;> rfl
  have hsettled := settle_eq_closingResult setting h (u.closingOf exit)
  show (raisedBy frames exit u ++
    ([(⟨frames, u, .settled (u.closingOf exit)
      (u.settle setting s.checkpoint.1 (u.closingOf exit)).1⟩ : Moment)] ++ [_])).filterMap
        Moment.closed? = _
  rw [List.filterMap_append, List.filterMap_append, hraised, hsettled, closed?_settled]
  exact List.append_nil _

/-- **The snapshots that were closed** are those of the moments at which a checkpoint is settled. -/
theorem Activity.closings_eq (h : Activity setting frames s moments t) :
    t.closings = s.closings ++ moments.filterMap Moment.closed? := by
  induction h with
  | andThen first second ih ih' => rw [ih', ih, List.filterMap_append, List.append_assoc]
  | note frames s entry h =>
      rw [List.filterMap_nil, List.append_nil]
      exact picked_skip (closing?_of_isRemark entry h) s
  | transfer h hpaid =>
      rw [List.filterMap_nil, List.append_nil]
      exact picked_transfer (fun _ => closing?_of_isRemark _) hpaid
  | nonce h hclaimed =>
      rw [List.filterMap_nil, List.append_nil]
      exact picked_incNonce hclaimed
  | @entered frames s t moments code frame hfatal hcode hstatic hdepth body ih =>
      have hhanded : ((s.inside frame).note
          (.frame code frame frame.depth frame.isStatic)).closings = s.closings := by
        refine (picked_note Entry.closing? (s.inside frame) _).trans ?_
        exact List.append_nil _
      rw [hhanded] at ih
      exact ih
  | @guarded frames s t u moments exit hfatal opening body ends output nrgLeft ih =>
      have hretains := body.toRetains.trans ends.toExtends.toRetains
      have hleft : (u.leave setting s.checkpoint.1 exit output nrgLeft).2.closings =
          u.closings ++ pickedClosing Entry.closing? setting (u.closingOf exit)
            s.accounts.nextId := by
        have hpicked := picked_leave (fun _ => closing?_of_isRemark _) setting u s.checkpoint.1
          exit output nrgLeft
        exact hpicked.trans (congrArg (· ++ _) (List.append_nil _))
      have hended : u.closings = t.closings := ends.picked_eq fun _ => closing?_of_isRemark _
      have hopened : s.checkpoint.2.closings = s.closings :=
        picked_checkpoint (fun _ => closing?_of_isRemark _) s
      rw [hleft, hended, ih, hopened]
      show _ = s.closings ++ (moments ++ _).filterMap Moment.closed?
      rw [List.filterMap_append, closed?_leaveChronicle hretains, List.append_assoc]
  | @givenUp frames s entry h =>
      have hnoted : (s.checkpoint.2.note entry).closings = s.closings :=
        (picked_skip (closing?_of_isRemark entry h) _).trans
          (picked_checkpoint (fun _ => closing?_of_isRemark _) s)
      have hsettled : ((s.checkpoint.2.note entry).settleOrLatch setting s.checkpoint.1
          .restore).closings = (s.checkpoint.2.note entry).closings ++
            pickedClosing Entry.closing? setting .restore s.accounts.nextId :=
        picked_settleOrLatch (fun _ => closing?_of_isRemark _) setting _ s.checkpoint.1 .restore
      rw [hsettled, hnoted, settle_eq_closingResult setting (.refl _), closed?_settled]
  | _ => exact (List.append_nil _).symm

end Executor

end MessageCalls
