import AttributeExchange.Inquirer
import AttributeExchange.Proofs.Exchange.Composed

/-!
# Operations as composed steps

Whatever an inquirer does, it deals with its collaborators by calls of the channel and by drawing
ids only, and what it does next hangs on their answers alone: the same operation with other
collaborators is put together in the same way. One lemma for each function that the operations are
made of.
-/

namespace AttributeExchange

open Exchange (Composed Matched)

variable {σ τ : Type} [Channel σ] [IdSource σ] [Channel τ] [IdSource τ]

theorem Subscription.matched_acquire (subscription : Subscription) :
    Matched (subscription.acquire : Exchange σ (Except RequestFault Unit × Subscription))
      (subscription.acquire : Exchange τ (Except RequestFault Unit × Subscription)) := by
  refine (Matched.call _).bind fun accepted => ?_
  cases accepted with
  | true => exact .pure _
  | false => exact (Matched.note _).bind fun _ => .pure _

theorem Subscription.matched_relinquish (subscription : Subscription) :
    Matched (subscription.relinquish : Exchange σ (Bool × Subscription))
      (subscription.relinquish : Exchange τ (Bool × Subscription)) := by
  refine (Matched.call _).bind fun accepted => ?_
  cases accepted with
  | true => exact .pure _
  | false => exact (Matched.note _).bind fun _ => .pure _

theorem Inquiry.matched_answer (inquiry : Inquiry) (value : Json) :
    Matched (inquiry.answer value : Exchange σ Unit) (inquiry.answer value : Exchange τ Unit) := by
  refine (Matched.emit _ rfl).bind fun _ => ?_
  cases inquiry.forwardTo with
  | none => exact .pure _
  | some topic => exact (Matched.forward _).bind fun _ => .pure _

theorem Inquiry.matched_lapse (inquiry : Inquiry) :
    Matched (inquiry.lapse : Exchange σ Bool) (inquiry.lapse : Exchange τ Bool) := by
  unfold lapse
  cases inquiry.expiry with
  | absent => exact .pure _
  | silent => exact (Matched.emit _ rfl).bind fun _ => .pure _
  | publishing topic document =>
      exact (Matched.emit _ rfl).bind fun _ => (Matched.forward _).bind fun _ => .pure _

namespace Inquirer

theorem matched_diagnose (settings : Settings) (notice : Notice) :
    Matched (diagnose settings notice : Exchange σ Unit)
      (diagnose settings notice : Exchange τ Unit) :=
  Matched.ite (fun _ => .note _) fun _ => .pure _

theorem matched_settle (q : Inquirer) :
    Matched (q.settle : Exchange σ Inquirer) (q.settle : Exchange τ Inquirer) :=
  Matched.ite (fun _ => q.subscription.matched_relinquish.bind fun _ => .pure _)
    fun _ => .pure _

/-! ## Submissions -/

theorem matched_compose (draft : Draft) :
    Matched (compose draft : Exchange σ (Except RequestFault Json))
      (compose draft : Exchange τ (Except RequestFault Json)) :=
  (Matched.noteTimes _ _).bind fun _ => .pure _

theorem matched_check (settings : Settings) (s : Submission) :
    Matched (check settings s : Exchange σ (Except RequestFault Checked))
      (check settings s : Exchange τ (Except RequestFault Checked)) := by
  have hreject : ∀ (notice : Notice) (fault : RequestFault),
      Matched (do diagnose settings notice; return .error fault :
        Exchange σ (Except RequestFault Checked))
      (do diagnose settings notice; return .error fault :
        Exchange τ (Except RequestFault Checked)) :=
    fun notice fault => (matched_diagnose settings notice).bind fun _ => .pure _
  refine Matched.ite (fun _ => ?_) fun _ => hreject _ _
  cases s.requestMember with
  | none => exact hreject _ _
  | some requestMember =>
      cases s.responseMember with
      | none => exact hreject _ _
      | some responseMember =>
          cases settings.excessKeys? s.inquiry.keys with
          | some fault => exact hreject _ _
          | none =>
              refine (matched_compose _).bind fun payload => ?_
              cases payload with
              | error fault => exact hreject _ _
              | ok document => exact .pure _

theorem matched_refuse {α : Type} (q : Inquirer) (fault : RequestFault) :
    Matched (q.refuse fault : Exchange σ (Except RequestFault α × Inquirer))
      (q.refuse fault : Exchange τ (Except RequestFault α × Inquirer)) :=
  (Matched.note _).bind fun _ => (matched_settle q).bind fun _ => .pure _

theorem matched_identify (q : Inquirer) (checked : Checked) :
    Matched (q.identify checked : Exchange σ (Except RequestFault Ready × Inquirer))
      (q.identify checked : Exchange τ (Except RequestFault Ready × Inquirer)) := by
  refine Matched.draw.bind fun drawn => ?_
  cases drawn with
  | none => exact matched_refuse q _
  | some id =>
      refine (Matched.noteTimes _ _).bind fun _ => ?_
      cases Draft.publication _ with
      | error fault => exact matched_refuse q fault
      | ok publication => exact .pure _

theorem matched_prepare (q : Inquirer) (s : Submission) :
    Matched (q.prepare s : Exchange σ (Except RequestFault Ready × Inquirer))
      (q.prepare s : Exchange τ (Except RequestFault Ready × Inquirer)) := by
  refine (matched_check q.settings s).bind fun checked => ?_
  cases checked with
  | error fault => exact .pure _
  | ok checked =>
      dsimp only
      cases q.outstanding.checkRoom with
      | error fault => exact (Matched.note _).bind fun _ => .pure _
      | ok _ =>
          refine q.subscription.matched_acquire.bind fun acquired => ?_
          obtain ⟨obtained, subscription⟩ := acquired
          cases obtained with
          | error fault => exact .pure _
          | ok _ => exact matched_identify _ checked

theorem matched_commit (q : Inquirer) (ready : Ready) (now : Instant) :
    Matched (q.commit ready now : Exchange σ (Except RequestFault RequestId × Inquirer))
      (q.commit ready now : Exchange τ (Except RequestFault RequestId × Inquirer)) := by
  unfold commit
  dsimp only
  cases q.outstanding.insert _ with
  | error fault => exact matched_refuse q fault
  | ok outstanding =>
      refine (Matched.call _).bind fun accepted => ?_
      cases accepted with
      | true => exact (Matched.note _).bind fun _ => .pure _
      | false => exact (Matched.note _).bind fun _ => .pure _

theorem matched_submit (q : Inquirer) (s : Submission) (now : Instant) :
    Matched (q.submit s now : Exchange σ (Except RequestFault RequestId × Inquirer))
      (q.submit s now : Exchange τ (Except RequestFault RequestId × Inquirer)) := by
  refine (matched_prepare q s).bind fun prepared => ?_
  obtain ⟨prepared, q⟩ := prepared
  cases prepared with
  | error fault => exact .pure _
  | ok ready => exact matched_commit q ready now

/-! ## The other operations -/

theorem matched_receive (q : Inquirer) (topic : String) (document : Json) :
    Matched (q.receive topic document : Exchange σ (Receipt × Inquirer))
      (q.receive topic document : Exchange τ (Receipt × Inquirer)) := by
  unfold receive
  refine Matched.ite (fun _ => ?_) fun _ => .pure _
  cases Topic.parseId? Topic.responseBase topic with
  | none => exact (matched_diagnose _ _).bind fun _ => .pure _
  | some id =>
      dsimp only
      cases q.outstanding.take? id with
      | none => exact (matched_diagnose _ _).bind fun _ => .pure _
      | some taken =>
          obtain ⟨request, outstanding⟩ := taken
          dsimp only
          cases request.member with
          | none =>
              exact (matched_diagnose _ _).bind fun _ =>
                (matched_settle _).bind fun _ => .pure _
          | some name =>
              refine Matched.bind ?_ fun _ => (matched_settle _).bind fun _ => .pure _
              exact (request.inquiry.matched_answer _).bind fun _ => .pure _

theorem matched_lapseAll (requests : List OpenRequest) :
    Matched (lapseAll requests : Exchange σ Unit) (lapseAll requests : Exchange τ Unit) := by
  induction requests with
  | nil => exact .pure _
  | cons request requests ih =>
      refine Matched.bind (request.inquiry.matched_lapse.bind fun _ => .pure _) fun _ => ?_
      exact (Matched.note _).bind fun _ => ih

theorem matched_retire (q : Inquirer) (now : Instant) :
    Matched (q.retire now : Exchange σ (List RequestId × Inquirer))
      (q.retire now : Exchange τ (List RequestId × Inquirer)) := by
  refine Matched.ite (fun _ => .pure _) fun _ => ?_
  exact (matched_lapseAll _).bind fun _ => (matched_settle _).bind fun _ => .pure _

theorem matched_cancelAll (q : Inquirer) :
    Matched (q.cancelAll : Exchange σ (Bool × Inquirer))
      (q.cancelAll : Exchange τ (Bool × Inquirer)) := by
  refine Matched.ite (fun _ => (Matched.note _).bind fun _ => ?_) fun _ => ?_
  all_goals exact q.subscription.matched_relinquish.bind fun _ => .pure _

/-- An operation does the same with any collaborators, up to their answers. -/
theorem matched_perform (q : Inquirer) (now : Instant) (operation : Operation) :
    Matched (q.perform now operation : Exchange σ (Result × Inquirer))
      (q.perform now operation : Exchange τ (Result × Inquirer)) := by
  cases operation with
  | submit s => exact (matched_submit q s now).bind fun _ => .pure _
  | receive topic document => exact (matched_receive q topic document).bind fun _ => .pure _
  | retire => exact (matched_retire q now).bind fun _ => .pure _
  | cancelAll => exact (matched_cancelAll q).bind fun _ => .pure _
  | reconnect => exact (matched_cancelAll q).bind fun _ => .pure _

/-- Every operation is composed. -/
theorem composed_perform (q : Inquirer) (now : Instant) (operation : Operation) :
    Composed (q.perform now operation : Exchange σ (Result × Inquirer)) :=
  (matched_perform q now operation (τ := σ)).composed

end Inquirer

end AttributeExchange
