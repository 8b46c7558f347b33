import AttributeExchange.Proofs.CommandLine.Outcome
import AttributeExchange.Proofs.Inquirer.Drafts

/-!
# Documents between the parts of the program

A document goes from one part of the program to the next as its compact text. What is read from that
text is the document itself if its numbers are integers, so that it makes no difference whether the
text is handed over or the document.
-/

namespace AttributeExchange

namespace Json

/-! ## Documents of a request -/

theorem read_compact_singleton (field text : String) :
    read (utf8 (Json.object [(field, .string text)]).compact) =
      .ok (.object [(field, .string text)]) := by
  have hsound : Sound nestingLimit (.object [(field, .string text)]) :=
    .object (List.pairwise_singleton _ _) (List.forall_mem_singleton.mpr (.string text))
  have hwhole : Whole (.object [(field, .string text)]) :=
    .object (List.forall_mem_singleton.mpr (.string text))
  rw [read_compact (hsound.scanNested_append ends_nil), hwhole.reread_eq_self]

end Json

namespace CommandLine

/-! ## Answers -/

section Answer

variable {course : Course} {progress : Progress} {q : Inquirer} {document again : Json}

theorem Course.answer_eq (hswitchboard : course.switchboard = ⟨[.inquirer 0]⟩)
    (hq : progress.inquirers = [q]) (hread : Json.read (utf8 document.compact) = .ok again) :
    let topic := Topic.response course.id
    let received := (q.receive topic again).run progress.peers
    course.answer document progress =
      (.ok (),
        { inquirers := [received.value.2]
          peers := received.peers
          output := progress.output ++ ["<- " ++ topic ++ " " ++ document.compact] ++
            course.log (receiptContext topic) received.events
          attributes := (Progress.lastAnswer? received.events).or progress.attributes
          timedOut := progress.timedOut || Progress.anyLapsed received.events }) := by
  intro topic received
  have hrun := Course.run_delivery q course.id hread progress.peers
  rw [← hswitchboard, ← hq] at hrun
  rw [Course.answer, Progress.exchange]
  dsimp only [Progress.print]
  rw [hrun]
  rfl

/-- The handler of an open request gets what it wants of the document that is read. -/
theorem runs_receive_of_open {settings : Settings} (hq : Inquirer.Reachable settings q)
    {request : OpenRequest} (hrequest : request ∈ q.outstanding.requests) (document : Json)
    (peers : RunPeers) :
    let received := (q.receive (Topic.response request.id) document).run peers
    ∃ name, request.member = some name ∧
      Event.runs received.events = [.answered request.inquiry.tag (document.select name)] ∧
      Progress.lastAnswer? received.events = some (document.select name) := by
  obtain ⟨requests, horderly, rfl⟩ := hq.exists_waitingFor
  intro received
  have hsome : Inquirer.addressee? requests (Topic.response request.id) = some request :=
    (Inquirer.addressee?_eq_some_iff horderly).mpr
      ⟨hrequest, Topic.parseId?_ofId Topic.responseBase request.id⟩
  obtain ⟨-, before, after, hclosed⟩ :=
    Inquirer.run_receive_of_addressee settings horderly hsome document peers
  obtain ⟨name, hname⟩ := Option.isSome_iff_exists.mp (horderly.members request hrequest)
  have hruns : Event.runs received.events =
      [.answered request.inquiry.tag (document.select name)] := by
    rw [hclosed.runs, OpenRequest.wanted, hname]
    rfl
  refine ⟨name, hname, hruns, ?_⟩
  rw [← Progress.lastAnswer?_runs, hruns]
  rfl

end Answer

/-! ## All documents -/

variable {σ : Type} [Channel σ]

/-- Documents go through their texts unchanged. The document of the server, if its numbers are
integers, is read again from the text that is printed and handed over. So every handler that takes
documents is handed that very document, whatever it claims, and the request that is open under the
id of the answer gets its part of it. And the text of a finished request, whatever characters its
field and its keys have, is read as the object whose only member is that field with the joined keys.
-/
theorem documents_unchanged_by_encoding :
    (∀ (options : Options) (document : Json), loadResponse options = .ok (some document) →
      document.Whole →
      Json.read (utf8 document.compact) = .ok document ∧
      (∀ (switchboard : Switchboard) topic handler position (inquirers : List Inquirer) (peers : σ),
        switchboard.ClaimsFirst topic handler position → handler.form = .document →
        (switchboard.deliver topic (utf8 document.compact) inquirers).run peers =
          let outcome :=
            (handler.carryOut (.takeDocument topic document) inquirers position).run peers
          ⟨(.ok true, outcome.value.2), outcome.peers, outcome.events⟩) ∧
      ∀ instant logging settings q (progress : Progress) id, Inquirer.Reachable settings q →
        progress.inquirers = [q] →
        let course := { courseOf instant options logging (some document) with id }
        let topic := Topic.response id
        let received := (q.receive topic document).run progress.peers
        let answered := course.answer document progress
        answered.1 = .ok () ∧ answered.2.inquirers = [received.value.2] ∧
        answered.2.peers = received.peers ∧
        answered.2.output = progress.output ++ ["<- " ++ topic ++ " " ++ document.compact] ++
          logLines options logging (receiptContext topic) (Log.ofEvents received.events) ∧
        ∀ request ∈ q.outstanding.requests, request.id = id →
          ∃ name, request.member = some name ∧
            Event.runs received.events = [.answered request.inquiry.tag (document.select name)] ∧
            answered.2.attributes = some (document.select name)) ∧
    ∀ (draft : Draft) (publication : Publication), draft.publication = .ok publication →
      ∃ field keys, draft.requestMember = some field ∧
        (draft.layout.join draft.keys).result = .ok keys ∧
        Json.read (utf8 publication.payload.compact) = .ok (.object [(field, .string keys)]) := by
  refine ⟨fun options document hresponse hwhole => ?_, fun draft publication hpublication => ?_⟩
  · have hread : Json.read (utf8 document.compact) = .ok document := by
      rw [read_of_loadResponse hresponse document rfl, hwhole.reread_eq_self]
    refine ⟨hread, fun switchboard topic handler position inquirers peers hclaims hform => ?_,
      fun instant logging settings q progress id hq hinquirers => ?_⟩
    · exact Switchboard.run_deliver_of_document
        (Switchboard.claimant?_eq_some_iff.mpr hclaims) hform hread peers
    · intro course topic received answered
      have hanswered : answered = _ := Course.answer_eq rfl hinquirers hread
      rw [hanswered]
      refine ⟨rfl, rfl, rfl, rfl, ?_⟩
      rintro request hrequest rfl
      obtain ⟨name, hname, hruns, hlast⟩ :=
        runs_receive_of_open hq hrequest document progress.peers
      have hattributes : (Progress.lastAnswer? received.events).or progress.attributes =
          some (document.select name) := by
        rw [hlast, Option.some_or]
      exact ⟨name, hname, hruns, hattributes⟩
  · obtain ⟨id, document, -, hdocument, rfl⟩ := Draft.publication_eq_ok_iff.mp hpublication
    obtain ⟨field, -, keys, hfield, -, hkeys, rfl⟩ := Draft.payload_eq_ok_iff.mp hdocument
    exact ⟨field, keys, hfield, hkeys, Json.read_compact_singleton field keys⟩

/-- Both ends of the 64-bit range and minus zero as deep as a document may nest, a name given twice,
and characters that are escaped. -/
theorem documents_unchanged_by_encoding_deepest :
    let brackets (c : Char) : String := .ofList (List.replicate 126 c)
    let numbers : List Json :=
      [.integer (-9223372036854775808), .integer 18446744073709551615, .double Json.minusZero]
    let text := "\x7b\"client\":" ++ brackets '[' ++
      "-9223372036854775808,18446744073709551615,-0" ++ brackets ']' ++
      ",\"\\ud83d\\ude00\\u0001\\\"\":0,\"\\ud83d\\ude00\\u0001\\\"\":\"\\\\/\"\x7d"
    let options : Options := ⟨none, false, .client, ["a"], some text, 1, 1, 100⟩
    let nested := (fun element => Json.array [element])^[125] (.array numbers)
    let document : Json := .object [("client", nested), ("😀\x01\"", .string "\\/")]
    let q := (submitted .start options .default).value.2
    let progress : Progress := ⟨[q], ⟨.new, .after 1⟩, [], none, false⟩
    let draft : Draft := ⟨["\"é", "\\"], some 7, some "\n\"", some "", ⟨true, none⟩, false⟩
    loadResponse options = .ok (some document) ∧ document.Whole ∧
      Json.read (utf8 document.compact) = .ok document ∧
      ((courseOf (punctual 100) options false (some document)).answer
        document progress).2.attributes = some nested ∧
      (∃ publication, draft.publication = .ok publication ∧
        publication.payload.compact = "\x7b\"\\n\\\"\":\"\\\"é,\\\\,\"\x7d" ∧
        Json.read (utf8 publication.payload.compact) =
          .ok (.object [("\n\"", .string "\"é,\\,")])) := by
  intro brackets numbers text options nested document q progress draft
  have hnested (depth : Nat) :
      Json.Whole ((fun element => Json.array [element])^[depth] (.array numbers)) := by
    induction depth with
    | zero => exact .array (by simp [numbers, Json.Whole.integer, Json.Whole.minusZero])
    | succ depth ih =>
        rw [Function.iterate_succ_apply']
        exact .array (List.forall_mem_singleton.mpr ih)
  have hwhole : document.Whole :=
    .object (List.forall_mem_cons.mpr ⟨hnested 125, List.forall_mem_singleton.mpr (.string "\\/")⟩)
  have hresponse : loadResponse options = .ok (some document) := by decide +kernel
  have hq : Inquirer.Reachable .default q :=
    Inquirer.Reachable.new.perform (⟨.new, .after 0⟩ : RunPeers) .start
      (.submit (submissionOf options))
  have hpublication : draft.publication =
      .ok ⟨7, Topic.request 7, .object [("\n\"", .string "\"é,\\,")]⟩ := by decide +kernel
  obtain ⟨hdocument, hdraft⟩ := documents_unchanged_by_encoding (σ := Peers Recorder Counter)
  obtain ⟨hread, -, hanswer⟩ := hdocument options document hresponse hwhole
  obtain ⟨-, -, -, -, hopen⟩ := hanswer (punctual 100) false .default q progress 1 hq rfl
  obtain ⟨name, hname, -, hattributes⟩ :=
    hopen ((submissionOf options).opening .default 1 .start) (List.mem_singleton_self _) rfl
  obtain ⟨field, keys, hfield, hkeys, hagain⟩ := hdraft draft _ hpublication
  obtain rfl := Option.some.inj hname
  obtain rfl := Option.some.inj hfield
  have hjoined : (draft.layout.join draft.keys).result = .ok "\"é,\\," := by decide +kernel
  obtain rfl := Except.ok.inj (hkeys.symm.trans hjoined)
  exact ⟨hresponse, hwhole, hread, hattributes, _, hpublication, by decide +kernel, hagain⟩

end CommandLine

end AttributeExchange
