import Harvest.Proofs.Link.Replies

/-! What becomes of a connection once a query on it has failed. After a timeout nothing is asked any
more. After a broken line, or where the stream cannot be read, it looks ended once, so the next query
that is sent is answered as if the relay had nothing; only then is the connection given up. -/

namespace Harvest

namespace Link

/-! ## How a query ends -/

/-- What comes in while a query waits: bytes, until the relay closes its side. -/
def incoming (l : Link) (parts : List Serving) : Link :=
  parts.foldl (fun link part =>
    match part with
    | .bytes bytes => link.receive bytes
    | .close => link.hangUp) l

inductive Fate
  /-- The connection was given up before, so nothing was asked. -/
  | turnedAway
  /-- The stream takes no request, or not the word that the reply is not needed further. -/
  | unsent (reason : String)
  | replied (reply : Reply)
  | failed (fault : LinkFault)
  /-- The stream could not be read on. -/
  | lost (reason : String)
  | expired

def Fate.answer : Fate → Except LinkFault Reply
  | turnedAway => .error closedFault
  | unsent reason => .error (.reset reason)
  | replied reply => .ok reply
  | failed fault => .error fault
  | lost reason => .error (.reset reason)
  | expired => .error (.timeout .query)

/-- The connection once a query was asked on it. -/
def asking (l : Link) : Link := { l with asked := l.asked + 1 }

/-- How a query can end that was asked under this name, and the connection after it. What comes in,
whether the stream takes what is sent and can be read on, and when the time is over are left open; it
can be over at any point, so nothing is known then of the lines that were read. A stream that cannot
be read on fails once all that has come in was read, and looks ended once after that. -/
inductive Ends (l : Link) (sub : String) : Fate → Link → Prop
  | unsent (reason : String) : Ends l sub (.unsent reason) l
  | replied (parts : List Serving) {reply : Reply} {farewell : Option ClientFrame} {l' : Link} :
      (l.incoming parts).collect sub = (l', .reply reply farewell) →
        Ends l sub (.replied reply) l'
  | unfinished (parts : List Serving) (reason : String) {reply : Reply} {farewell : ClientFrame}
      {l' : Link} : (l.incoming parts).collect sub = (l', .reply reply (some farewell)) →
        Ends l sub (.unsent reason) l'
  | failed (parts : List Serving) {fault : LinkFault} {l' : Link} :
      (l.incoming parts).collect sub = (l', .failed fault) → Ends l sub (.failed fault) l'
  | lost (parts : List Serving) (reason : String) {soFar : Reply} {l' : Link} :
      (l.incoming parts).collect sub = (l', .waiting soFar) →
        Ends l sub (.lost reason) { l' with halted := true }
  | expired (reading : Link) : Ends l sub .expired reading.expire.1

/-- One query on a connection, how it ends, and the connection after it. -/
inductive Meets (l : Link) (q : WindowQuery) : Fate → Link → Prop
  | turnedAway : l.ask q = .error closedFault → Meets l q .turnedAway l
  | asked {sent l' : Link} {sub : String} {frame : ClientFrame} {fate : Fate} :
      l.ask q = .ok (sent, sub, frame) → Ends sent sub fate l' → Meets l q fate l'

/-- Queries one after the other on one connection. -/
inductive Row : Link → List Fate → Link → Prop
  | nil (l : Link) : Row l [] l
  | cons {l l' l'' : Link} {q : WindowQuery} {fate : Fate} {fates : List Fate} :
      Meets l q fate l' → Row l' fates l'' → Row l (fate :: fates) l''

/-- What can follow once the stream looks ended: queries that are not sent, then one that is, which
has an empty reply if its time is not over, and after it none. -/
inductive Fades : List Fate → Prop
  | nil : Fades []
  | unsent (reason : String) {fates : List Fate} : Fades fates → Fades (.unsent reason :: fates)
  | replied {fates : List Fate} : (∀ fate ∈ fates, fate = .turnedAway) →
      Fades (.replied {} :: fates)
  | expired {fates : List Fate} : (∀ fate ∈ fates, fate = .turnedAway) → Fades (.expired :: fates)

variable {l l' : Link} {q : WindowQuery} {sub : String}

/-! ## What a query does to the connection -/

theorem ask_unusable (h : l.usable = false) : l.ask q = .error closedFault := by
  simp [ask, h]

theorem ask_eq_ok {sent : Link} {frame : ClientFrame} (h : l.ask q = .ok (sent, sub, frame)) :
    l.usable = true ∧ sent = l.asking := by
  unfold ask at h
  split at h
  · rename_i hu
    cases h
    exact ⟨hu, rfl⟩
  · cases h

/-- Nothing that comes in breaks the connection, or mends it. -/
theorem state_incoming (l : Link) (parts : List Serving) :
    (l.incoming parts).usable = l.usable ∧ (l.incoming parts).halted = l.halted := by
  induction parts generalizing l with
  | nil => exact ⟨rfl, rfl⟩
  | cons part parts ih =>
    obtain ⟨husable, hhalted⟩ : (l.incoming [part]).usable = l.usable ∧
        (l.incoming [part]).halted = l.halted := by
      cases part with
      | bytes bytes =>
        show (l.receive bytes).usable = l.usable ∧ (l.receive bytes).halted = l.halted
        unfold receive
        split <;> exact ⟨rfl, rfl⟩
      | close =>
        show l.hangUp.usable = l.usable ∧ l.hangUp.halted = l.halted
        unfold hangUp
        split <;> exact ⟨rfl, rfl⟩
    have hrest := ih (l.incoming [part])
    rw [husable, hhalted] at hrest
    exact hrest

/-- A reply fails because the relay refuses, or at a broken line, and only then the stream looks
ended. To wait for more breaks nothing. -/
theorem collect_cases {outcome : Outcome} (h : l.collect sub = (l', outcome)) :
    match outcome with
    | .reply .. => True
    | .failed fault =>
      (∃ reason, fault = .refused reason) ∨
        (∃ broken : LineFault, fault = .reset broken.message) ∧ l'.halted = true ∧
          l'.usable = l.usable
    | .waiting _ => l'.usable = l.usable := by
  rw [collect] at h
  split at h
  · cases h
    trivial
  · dsimp only at h
    split at h
    · cases h
      trivial
    · cases h
      exact .inl ⟨_, rfl⟩
    · cases h
      exact .inr ⟨⟨_, rfl⟩, rfl, rfl⟩
    · split at h
      · cases h
        trivial
      · cases h
        rfl

/-- Where the stream looks ended a query has an empty reply, unless it is not sent or its time is
over, and the connection is not used after it. -/
theorem Ends.of_halted {fate : Fate} (h : Ends l sub fate l') (hu : l.usable = true)
    (hl : l.halted = true) :
    (∃ reason, fate = .unsent reason) ∧ l'.usable = true ∧ l'.halted = true ∨
      (fate = .replied {} ∨ fate = .expired) ∧ l'.usable = false := by
  have hcollect (parts : List Serving) : (l.incoming parts).collect sub =
      ({ l.incoming parts with halted := false, usable := false }, .reply {} none) :=
    collect_halted ((state_incoming l parts).2.trans hl)
  cases h with
  | unsent reason => exact .inl ⟨⟨reason, rfl⟩, hu, hl⟩
  | replied parts hreply =>
    rw [hcollect] at hreply
    cases hreply
    exact .inr ⟨.inl rfl, rfl⟩
  | unfinished parts reason hreply =>
    rw [hcollect] at hreply
    cases hreply
  | failed parts hfailed =>
    rw [hcollect] at hfailed
    cases hfailed
  | lost parts reason hwaiting =>
    rw [hcollect] at hwaiting
    cases hwaiting
  | expired reading => exact .inr ⟨.inr rfl, rfl⟩

theorem Ends.of_reset {reason : String} (h : Ends l sub (.failed (.reset reason)) l') :
    (∃ fault : LineFault, reason = fault.message) ∧ l'.halted = true ∧ l'.usable = l.usable := by
  cases h with
  | failed parts hfailed =>
    rcases collect_cases hfailed with ⟨_, hrefused⟩ | ⟨⟨fault, hfault⟩, hhalted, husable⟩
    · cases hrefused
    · exact ⟨⟨fault, LinkFault.reset.inj hfault⟩, hhalted,
        husable.trans (state_incoming l parts).1⟩

theorem Ends.of_lost {reason : String} (h : Ends l sub (.lost reason) l') :
    l'.halted = true ∧ l'.usable = l.usable := by
  cases h with
  | lost parts reason hwaiting =>
    exact ⟨rfl, (collect_cases hwaiting).trans (state_incoming l parts).1⟩

namespace Meets

variable {fate : Fate}

theorem of_unusable (h : Meets l q fate l') (hl : l.usable = false) :
    fate = .turnedAway ∧ l' = l := by
  cases h with
  | turnedAway => exact ⟨rfl, rfl⟩
  | asked hask hends =>
    rw [ask_unusable hl] at hask
    cases hask

/-- A query that is not turned away is sent on a connection that can be used. -/
theorem of_usable (h : Meets l q fate l') (hl : l.usable = true) :
    ∃ sub, Ends l.asking sub fate l' := by
  cases h with
  | turnedAway hask => simp [ask, hl] at hask
  | asked hask hends =>
    obtain ⟨-, rfl⟩ := ask_eq_ok hask
    exact ⟨_, hends⟩

/-- Once a query was turned away or its time was over, the connection is not used again. -/
theorem unusable_of_stopped (h : Meets l q fate l') (hf : fate = .turnedAway ∨ fate = .expired) :
    l'.usable = false := by
  cases hl : l.usable with
  | false => rw [(h.of_unusable hl).2, hl]
  | true =>
    obtain ⟨sub, hends⟩ := h.of_usable hl
    cases hends with
    | expired reading => rfl
    | unsent | replied | unfinished | failed | lost => simp at hf

theorem of_not_turnedAway (h : Meets l q fate l') (hf : fate ≠ .turnedAway) :
    l.usable = true ∧ ∃ sub, Ends l.asking sub fate l' := by
  cases hl : l.usable with
  | false => exact absurd (h.of_unusable hl).1 hf
  | true => exact ⟨rfl, h.of_usable hl⟩

theorem halted_of_reset {reason : String} (h : Meets l q (.failed (.reset reason)) l') :
    (∃ fault : LineFault, reason = fault.message) ∧ l'.usable = true ∧ l'.halted = true := by
  obtain ⟨hl, sub, hends⟩ := h.of_not_turnedAway (by simp)
  obtain ⟨hfault, hhalted, husable⟩ := hends.of_reset
  exact ⟨hfault, husable.trans hl, hhalted⟩

theorem halted_of_lost {reason : String} (h : Meets l q (.lost reason) l') :
    l'.usable = true ∧ l'.halted = true := by
  obtain ⟨hl, sub, hends⟩ := h.of_not_turnedAway (by simp)
  obtain ⟨hhalted, husable⟩ := hends.of_lost
  exact ⟨husable.trans hl, hhalted⟩

end Meets

/-! ## Queries one after the other -/

namespace Row

variable {fates before after : List Fate}

theorem split (h : Row l (before ++ after) l') : ∃ middle, Row l before middle ∧ Row middle after l' := by
  induction before generalizing l with
  | nil => exact ⟨l, .nil l, h⟩
  | cons fate before ih =>
    cases h with
    | cons hmeets hrest =>
      obtain ⟨middle, hbefore, hafter⟩ := ih hrest
      exact ⟨middle, .cons hmeets hbefore, hafter⟩

theorem of_unusable (h : Row l fates l') (hl : l.usable = false) :
    ∀ fate ∈ fates, fate = .turnedAway := by
  induction h with
  | nil => exact fun fate hfate => absurd hfate List.not_mem_nil
  | cons hmeets _ ih =>
    obtain ⟨rfl, rfl⟩ := hmeets.of_unusable hl
    exact List.forall_mem_cons.mpr ⟨rfl, ih hl⟩

theorem fades (h : Row l fates l') (hu : l.usable = true) (hl : l.halted = true) : Fades fates := by
  induction h with
  | nil => exact .nil
  | cons hmeets hrest ih =>
    obtain ⟨sub, hends⟩ := hmeets.of_usable hu
    rcases hends.of_halted hu hl with ⟨⟨reason, rfl⟩, hu', hl'⟩ | ⟨rfl | rfl, hu'⟩
    · exact .unsent reason (ih hu' hl')
    · exact .replied (hrest.of_unusable hu')
    · exact .expired (hrest.of_unusable hu')

end Row

/-- What follows a query that was turned away, or whose time was over, or that met a broken line, or
a stream that could not be read on. -/
theorem Row.after_failure {before after : List Fate} {fate : Fate}
    (h : Row l (before ++ fate :: after) l') :
    (fate = .turnedAway ∨ fate = .expired → ∀ later ∈ after, later = .turnedAway) ∧
      (∀ reason, fate = .failed (.reset reason) →
        (∃ fault : LineFault, reason = fault.message) ∧ Fades after) ∧
      ∀ reason, fate = .lost reason → Fades after := by
  obtain ⟨middle, -, hrest⟩ := h.split
  cases hrest with
  | cons hmeets hafter =>
    refine ⟨fun hstopped => hafter.of_unusable (hmeets.unusable_of_stopped hstopped), ?_, ?_⟩
    · rintro reason rfl
      obtain ⟨hfault, hu, hl⟩ := hmeets.halted_of_reset
      exact ⟨hfault, hafter.fades hu hl⟩
    · rintro reason rfl
      obtain ⟨hu, hl⟩ := hmeets.halted_of_lost
      exact hafter.fades hu hl

end Link

/-! ## A conversation -/

namespace Conversation

variable {c : Conversation} {q : WindowQuery}

/-- The answers to queries one after the other. -/
def answers (c : Conversation) (qs : List WindowQuery) : List (Except LinkFault Reply) :=
  (c.exchanges qs).map (·.answer)

theorem answers_cons (c : Conversation) (q : WindowQuery) (qs : List WindowQuery) :
    c.answers (q :: qs) = (c.query q).2 :: (c.query q).1.answers qs := rfl

theorem hear_link (c : Conversation) (f : ClientFrame) : (c.hear f).link = c.link := rfl

theorem exists_incoming_serve (c : Conversation) :
    ∃ parts, c.serve.link = c.link.incoming parts := by
  unfold serve
  split
  · exact ⟨[], rfl⟩
  · exact ⟨_, rfl⟩

/-- A query of a conversation is always sent, what comes in is read, and where the stream looks ended
it is not waited for. -/
theorem ends_query (h : c.link.usable = true) (q : WindowQuery) :
    ∃ sub fate, Link.Ends c.link.asking sub fate (c.query q).1.link ∧
      fate.answer = (c.query q).2 ∧ (∀ reason, fate ≠ .unsent reason ∧ fate ≠ .lost reason) ∧
      (c.link.halted = true → fate ≠ .expired) := by
  have hask : c.link.ask q = .ok (c.link.asking, Link.subName (c.link.asked + 1),
      .req (Link.subName (c.link.asked + 1)) q.filter) := if_pos h
  obtain ⟨parts, hparts⟩ := (({ c with link := c.link.asking } : Conversation).hear
    (.req (Link.subName (c.link.asked + 1)) q.filter)).exists_incoming_serve
  rw [hear_link] at hparts
  refine ⟨Link.subName (c.link.asked + 1), ?_⟩
  simp only [query, hask, hparts]
  cases hc : Link.collect _ (Link.subName (c.link.asked + 1)) with | mk l' outcome =>
  cases outcome with
  | reply reply farewell =>
    refine ⟨.replied reply, ?_⟩
    cases farewell with
    | none => exact ⟨.replied parts hc, rfl, by simp, by simp⟩
    | some frame => exact ⟨.replied parts hc, rfl, by simp, by simp⟩
  | failed fault =>
    exact ⟨.failed fault, .failed parts hc, rfl, by simp, by simp⟩
  | waiting soFar =>
    refine ⟨.expired, .expired l', rfl, by simp, fun hl => ?_⟩
    have hhalted : (c.link.asking.incoming parts).halted = true :=
      (Link.state_incoming _ parts).2.trans hl
    rw [Link.collect_halted hhalted] at hc
    cases hc

theorem answers_of_unusable (h : c.link.usable = false) (qs : List WindowQuery) :
    ∀ a ∈ c.answers qs, a = .error Link.closedFault := by
  induction qs with
  | nil => exact fun a ha => absurd ha List.not_mem_nil
  | cons q qs ih =>
    rw [answers_cons, query_turnedAway h]
    exact List.forall_mem_cons.mpr ⟨rfl, ih⟩

/-- Behind a broken line the next query has an empty reply, and all others are turned away. -/
theorem answers_of_halted (hu : c.link.usable = true) (hl : c.link.halted = true)
    (qs : List WindowQuery) :
    ∀ next later, c.answers qs = next :: later →
      next = .ok {} ∧ ∀ a ∈ later, a = .error Link.closedFault := by
  intro next later h
  cases qs with
  | nil => cases h
  | cons q qs =>
    rw [answers_cons] at h
    obtain ⟨rfl, rfl⟩ := List.cons.inj h
    obtain ⟨sub, fate, hends, hanswer, hsent, hwaits⟩ := ends_query hu q
    rcases hends.of_halted hu hl with ⟨⟨reason, rfl⟩, -⟩ | ⟨rfl | rfl, hu'⟩
    · exact absurd rfl (hsent reason).1
    · exact ⟨hanswer.symm, answers_of_unusable hu' qs⟩
    · exact absurd rfl (hwaits hl)

/-- What follows an answer is answered from the conversation after it. -/
theorem exists_of_answers {qs : List WindowQuery} {before after : List (Except LinkFault Reply)}
    {a : Except LinkFault Reply} (h : c.answers qs = before ++ a :: after) :
    ∃ (c' : Conversation) (q : WindowQuery) (rest : List WindowQuery), a = (c'.query q).2 ∧
      after = (c'.query q).1.answers rest := by
  induction before generalizing c qs with
  | nil =>
    cases qs with
    | nil => cases h
    | cons q qs =>
      obtain ⟨rfl, rfl⟩ := List.cons.inj h
      exact ⟨c, q, qs, rfl, rfl⟩
  | cons first before ih =>
    cases qs with
    | nil => cases h
    | cons q qs => exact ih (List.cons.inj h).2

/-- A connection on which a query has failed is not used again, unless the relay refused the query
or a line was broken, which leaves the stream as if it had ended. -/
theorem link_of_failed {fault : LinkFault} (h : (c.query q).2 = .error fault) :
    (fault = Link.closedFault ∨ fault = .timeout .query) ∧ (c.query q).1.link.usable = false ∨
      (∃ reason, fault = .refused reason) ∨
      (∃ broken : LineFault, fault = .reset broken.message) ∧
        (c.query q).1.link.usable = true ∧ (c.query q).1.link.halted = true := by
  cases hu : c.link.usable with
  | false =>
    rw [query_turnedAway hu] at h ⊢
    cases h
    exact .inl ⟨.inl rfl, hu⟩
  | true =>
    obtain ⟨sub, fate, hends, hanswer, hsent, -⟩ := ends_query hu q
    rw [h] at hanswer
    generalize (c.query q).1.link = after at hends ⊢
    cases hends with
    | unsent reason => exact absurd rfl (hsent reason).1
    | unfinished parts reason => exact absurd rfl (hsent reason).1
    | lost parts reason => exact absurd rfl (hsent reason).2
    | replied => cases hanswer
    | expired reading =>
      cases hanswer
      exact .inl ⟨.inr rfl, rfl⟩
    | failed parts hfailed =>
      cases hanswer
      rcases Link.collect_cases hfailed with hrefused | ⟨hbroken, hhalted, husable⟩
      · exact .inr (.inl hrefused)
      · exact .inr (.inr ⟨hbroken, husable.trans ((Link.state_incoming _ parts).1.trans hu),
          hhalted⟩)

/-- The words of a broken line are not those of a closed connection. -/
theorem broken_ne_closed (broken : LineFault) : .reset broken.message ≠ Link.closedFault := by
  cases broken <;> decide

/-- After a timeout or a reset all later queries are turned away, but behind a broken line the next
one has an empty reply first. -/
theorem after_failure {qs : List WindowQuery} {before after : List (Except LinkFault Reply)}
    {fault : LinkFault} (h : c.answers qs = before ++ .error fault :: after)
    (hfault : (∃ waited, fault = .timeout waited) ∨ ∃ reason, fault = .reset reason) :
    ((∀ broken : LineFault, fault ≠ .reset broken.message) →
      ∀ later ∈ after, later = .error Link.closedFault) ∧
    ∀ broken : LineFault, fault = .reset broken.message → ∀ next later, after = next :: later →
      next = .ok {} ∧ ∀ a ∈ later, a = .error Link.closedFault := by
  obtain ⟨c', q, rest, hfailed, rfl⟩ := exists_of_answers h
  rcases link_of_failed hfailed.symm with ⟨hstopped, hu⟩ | ⟨_, rfl⟩ | ⟨⟨broken, rfl⟩, hu, hl⟩
  · refine ⟨fun _ => answers_of_unusable hu rest, ?_⟩
    rintro broken rfl
    rcases hstopped with hclosed | htimeout
    · exact absurd hclosed (broken_ne_closed broken)
    · cases htimeout
  · rcases hfault with ⟨_, htimeout⟩ | ⟨_, hreset⟩
    · cases htimeout
    · cases hreset
  · exact ⟨fun hwhole => absurd rfl (hwhole broken), fun _ _ => answers_of_halted hu hl rest⟩

end Conversation

/-- **A failed query is the end of its connection, but for an empty reply behind a broken line.**
After a timeout, or once a query was turned away, every later query on the connection is turned away.
A query can only be reset otherwise at a broken line, or where the stream cannot be read on, or where
it does not take what is sent. After a broken line, or once the stream could not be read on, the next
query that is sent has an empty reply, unless its time is over, and all later ones are turned away.

In a conversation all is sent and the stream can be read, and nothing is waited for behind a broken
line. There no query has a reply after a timeout or a reset, exactly if that was no broken line or no
query follows. -/
theorem Link.broken_stream_ends (l : Link) :
    (∀ (before after : List Fate) (fate : Fate) (l' : Link), Row l (before ++ fate :: after) l' →
      (fate = .turnedAway ∨ fate = .expired → ∀ later ∈ after, later = .turnedAway) ∧
      (∀ reason, fate = .failed (.reset reason) →
        (∃ broken : LineFault, reason = broken.message) ∧ Fades after) ∧
      ∀ reason, fate = .lost reason → Fades after) ∧
    ∀ c : Conversation, c.link = l → ∀ (qs : List WindowQuery)
      (before after : List (Except LinkFault Reply)) (fault : LinkFault),
      c.answers qs = before ++ .error fault :: after →
      (∃ waited, fault = .timeout waited) ∨ (∃ reason, fault = .reset reason) →
        ((∀ later ∈ after, ∀ reply, later ≠ .ok reply) ↔
          after = [] ∨ ∀ broken : LineFault, fault ≠ .reset broken.message) ∧
        ((∀ broken : LineFault, fault ≠ .reset broken.message) →
          ∀ later ∈ after, later = .error closedFault) ∧
        ∀ broken : LineFault, fault = .reset broken.message → ∀ next later, after = next :: later →
          next = .ok {} ∧ ∀ a ∈ later, a = .error closedFault := by
  refine ⟨fun before after fate l' h => h.after_failure, ?_⟩
  intro c _ qs before after fault h hfault
  obtain ⟨hwhole, hbroken⟩ := c.after_failure h hfault
  refine ⟨⟨fun hnone => ?_, ?_⟩, hwhole, hbroken⟩
  · cases after with
    | nil => exact .inl rfl
    | cons next later =>
      refine .inr fun broken hreset => ?_
      obtain ⟨hempty, -⟩ := hbroken broken hreset next later rfl
      exact hnone next (List.mem_cons_self ..) {} hempty
  · rintro (rfl | hline) later hlater reply hreply
    · exact absurd hlater List.not_mem_nil
    · rw [hwhole hline later hlater] at hreply
      cases hreply

/-- Two bytes that are no text, then the end of a line. -/
def Link.noText : List Serving := [.bytes [0xC3, 0x28, 10]]

/-- A broken line, a query that is not sent, an empty reply and a query that is turned away; the same
without the one that is not sent, in a conversation; a stream that cannot be read on, and after it a
query whose time is over; and a silence. -/
theorem Link.broken_stream_ends_halted :
    let q : WindowQuery := ⟨⟨0, 1000⟩, 10⟩
    let l : Link := { lines := [.broken .notText] }
    let fates : List Fate := [.unsent "broken pipe", .replied {}, .turnedAway]
    let late : List Fate := [.expired, .turnedAway]
    let c : Conversation := { replies := [noText] }
    let silent : Conversation := { replies := [] }
    (∃ l', Row l ([] ++ .failed (.reset LineFault.notText.message) :: fates) l') ∧ Fades fates ∧
      (∃ l', Row {} ([] ++ .lost "connection reset" :: late) l') ∧ Fades late ∧
      c.answers [q, q, q] =
        [] ++ .error (.reset LineFault.notText.message) :: [.ok {}, .error closedFault] ∧
      (∀ a ∈ [Except.error closedFault], a = (.error closedFault : Except LinkFault Reply)) ∧
      silent.answers [q, q] = [] ++ .error (.timeout .query) :: [.error closedFault] ∧
      ∀ a ∈ [Except.error closedFault], ∀ reply : Reply, a ≠ .ok reply := by
  intro q l fates late c silent
  have hlines : ({ lines := [.broken .notText], asked := 1 } : Link).lines =
      [] ++ .broken .notText :: [] := rfl
  have hended : Link.collect { halted := true, asked := 3 } (subName 3) =
      ({ asked := 3, usable := false }, .reply {} none) := collect_halted rfl
  have hwaiting : Link.collect { asked := 1 } (subName 1) = ({ asked := 1 }, .waiting {}) :=
    collect_ranOut rfl (by simp)
  have hfates : Row l ([] ++ .failed (.reset LineFault.notText.message) :: fates)
      { asked := 3, usable := false } := by
    refine .cons (q := q) (.asked rfl (.failed [] (collect_broken rfl (by simp) hlines))) ?_
    refine .cons (q := q) (.asked rfl (.unsent _)) ?_
    refine .cons (q := q) (.asked rfl (.replied [] hended)) ?_
    exact .cons (q := q) (.turnedAway rfl) (.nil _)
  have hlate : Row {} ([] ++ .lost "connection reset" :: late) { asked := 2, usable := false } := by
    refine .cons (q := q) (.asked rfl (.lost [] _ hwaiting)) ?_
    refine .cons (q := q) (.asked rfl (.expired { asked := 2 })) ?_
    exact .cons (q := q) (.turnedAway rfl) (.nil _)
  have hbroken : c.answers [q, q, q] =
      [] ++ .error (.reset LineFault.notText.message) :: [.ok {}, .error closedFault] := by
    decide +kernel
  have hsilent : silent.answers [q, q] = [] ++ .error (.timeout .query) :: [.error closedFault] := by
    decide +kernel
  obtain ⟨hrow, -⟩ := broken_stream_ends l
  obtain ⟨hrows, hanswers⟩ := broken_stream_ends {}
  obtain ⟨-, hreset, -⟩ := hrow [] _ _ _ hfates
  obtain ⟨-, -, hlost⟩ := hrows [] _ _ _ hlate
  obtain ⟨-, -, hafter⟩ := hanswers c rfl _ [] _ _ hbroken (.inr ⟨_, rfl⟩)
  obtain ⟨hnone, -⟩ := hanswers silent rfl _ [] _ _ hsilent (.inl ⟨_, rfl⟩)
  obtain ⟨-, hclosed⟩ := hafter .notText rfl _ _ rfl
  exact ⟨⟨_, hfates⟩, (hreset _ rfl).2, ⟨_, hlate⟩, hlost _ rfl, hbroken, hclosed, hsilent,
    hnone.mpr (.inr fun _ h => by cases h)⟩

/-- **The stream of a broken line is taken for an empty reply.** The first query is reset, and the
second, on the same connection, has a reply. -/
theorem Link.broken_stream_answered :
    let q : WindowQuery := ⟨⟨0, 1000⟩, 10⟩
    let c : Conversation := { replies := [noText] }
    c.answers [q, q] = [.error (.reset LineFault.notText.message), .ok {}] := by
  intro q c
  decide +kernel

end Harvest
