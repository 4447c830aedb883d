import Harvest.Link.Server
import Mathlib

/-! How a reply is put together from the lines of a stream. Only the frames under the name of the
query count, and lines that are no frames; the reply ends at the first frame under that name that
says so, and what follows is left for the next query. No name is used twice, so what is sent for one
query is not in the reply to another one. -/

namespace Harvest

namespace RelayFrame

/-- The name under which a frame is sent. -/
def sub? : RelayFrame → Option String
  | event sub _ | eose sub | closed sub _ => some sub
  | notice _ => none

/-- It says that no more follows under this name. -/
def ends (sub : String) : RelayFrame → Bool
  | eose s | closed s _ => s = sub
  | event .. | notice _ => false

end RelayFrame

namespace Line

/-- What the line says, if it is a text. -/
def frame? : Line → Option (Except FrameFault RelayFrame)
  | text content => some (RelayFrame.decode content)
  | broken _ => none

/-- The payload of an event that is sent under this name. -/
def payload? (sub : String) (line : Line) : Option Json :=
  match line.frame? with
  | some (.ok (.event s payload)) => if s = sub then some payload else none
  | _ => none

/-- It is a text that is no frame. -/
def isGarbled (line : Line) : Bool :=
  match line.frame? with
  | some (.error _) => true
  | _ => false

/-- It ends the reply to the query of this name, or the stream is broken there. -/
def ends (sub : String) (line : Line) : Bool :=
  match line.frame? with
  | some (.ok frame) => frame.ends sub
  | some (.error _) => false
  | none => true

/-- It is a notice, or a frame under another name. -/
def isForeign (sub : String) (line : Line) : Bool :=
  match line.frame? with
  | some (.ok frame) => frame.sub? ≠ some sub
  | _ => false

/-- The payloads under this name, in their order. -/
def payloads (sub : String) (lines : List Line) : List Json := lines.filterMap (payload? sub)

def garbled (lines : List Line) : Nat := lines.countP isGarbled

end Line

namespace Reply

variable {sub : String}

/-! ## The lines of a reply -/

/-- What a line that does not end the reply adds to it. -/
def add (soFar : Reply) (sub : String) (line : Line) : Reply :=
  { soFar with
    items := (line.payload? sub).toList ++ soFar.items
    garbled := soFar.garbled + line.isGarbled.toNat }

theorem gather_cons {line : Line} (h : line.ends sub = false) (soFar : Reply) (back : List Line) :
    gather sub soFar (line :: back) = gather sub (soFar.add sub line) back := by
  cases line with
  | broken => cases h
  | text content =>
    rw [gather, add, Line.payload?, Line.isGarbled, Heard.ofText]
    simp only [Line.ends, Line.frame?] at h ⊢
    cases hd : RelayFrame.decode content with
    | error fault => rfl
    | ok frame =>
      rw [hd] at h
      cases frame with
      | event s payload =>
        by_cases hs : s = sub
        · simp only [if_pos hs]
          rfl
        · simp only [if_neg hs]
          rfl
      | eose s | closed s reason =>
        have hs : s ≠ sub := of_decide_eq_false h
        simp only [if_neg hs]
        rfl
      | notice text => rfl

/-- Up to its end a reply is gathered line by line. -/
theorem gather_append {front : List Line} (hf : ∀ line ∈ front, line.ends sub = false)
    (soFar : Reply) (back : List Line) :
    gather sub soFar (front ++ back) =
      gather sub { soFar with
        items := (Line.payloads sub front).reverse ++ soFar.items
        garbled := soFar.garbled + Line.garbled front } back := by
  induction front generalizing soFar with
  | nil => rfl
  | cons line front ih =>
    obtain ⟨hline, hfront⟩ := List.forall_mem_cons.mp hf
    rw [List.cons_append, gather_cons hline, ih hfront, add]
    congr 2
    · rw [Line.payloads, Line.payloads, List.filterMap_cons]
      cases line.payload? sub <;> simp
    · dsimp only
      rw [Line.garbled, Line.garbled, List.countP_cons]
      cases line.isGarbled with
      | false => simp
      | true =>
        simp
        omega

theorem gather_eose {content : String} (hd : RelayFrame.decode content = .ok (.eose sub))
    (soFar : Reply) (back : List Line) :
    gather sub soFar (.text content :: back) =
      ({ soFar with exhausted := true }, .complete, back) := by
  rw [gather, Heard.ofText, hd]
  simp only [if_pos]

theorem gather_closed {content reason : String}
    (hd : RelayFrame.decode content = .ok (.closed sub reason)) (soFar : Reply)
    (back : List Line) :
    gather sub soFar (.text content :: back) = (soFar, .refused reason, back) := by
  rw [gather, Heard.ofText, hd]
  simp only [if_pos]

/-- The line at which a reply ends adds nothing to it, and all lines after it are left. -/
theorem gather_ends {line : Line} (h : line.ends sub = true) (soFar : Reply) :
    ∃ exhausted ending, ∀ back,
      gather sub soFar (line :: back) = ({ soFar with exhausted }, ending, back) := by
  cases line with
  | broken fault => exact ⟨_, _, fun _ => rfl⟩
  | text content =>
    simp only [Line.ends, Line.frame?] at h
    cases hd : RelayFrame.decode content with
    | error fault =>
      rw [hd] at h
      cases h
    | ok frame =>
      rw [hd] at h
      cases frame with
      | eose s =>
        obtain rfl : s = sub := of_decide_eq_true h
        exact ⟨_, _, gather_eose hd soFar⟩
      | closed s reason =>
        obtain rfl : s = sub := of_decide_eq_true h
        exact ⟨_, _, gather_closed hd soFar⟩
      | event | notice => cases h

theorem add_of_foreign {line : Line} (h : line.isForeign sub = true) (soFar : Reply) :
    line.ends sub = false ∧ soFar.add sub line = soFar := by
  simp only [Line.isForeign] at h
  simp only [Line.ends, add, Line.payload?, Line.isGarbled]
  cases hf : line.frame? with
  | none =>
    rw [hf] at h
    cases h
  | some read =>
    rw [hf] at h
    cases read with
    | error fault => cases h
    | ok frame =>
      have hsub : frame.sub? ≠ some sub := of_decide_eq_true h
      cases frame with
      | event s payload =>
        have hs : s ≠ sub := fun he => hsub (congrArg some he)
        simp only [if_neg hs]
        exact ⟨rfl, rfl⟩
      | eose s | closed s reason =>
        have hs : s ≠ sub := fun he => hsub (congrArg some he)
        exact ⟨decide_eq_false hs, rfl⟩
      | notice text => exact ⟨rfl, rfl⟩

/-- **Lines that are for others make no difference**, wherever they stand. -/
theorem gather_filter (soFar : Reply) (lines : List Line) :
    gather sub soFar (lines.filter fun line => !line.isForeign sub) =
      let (reply, ending, rest) := gather sub soFar lines
      (reply, ending, rest.filter fun line => !line.isForeign sub) := by
  induction lines generalizing soFar with
  | nil => rfl
  | cons line lines ih =>
    cases hf : line.isForeign sub with
    | true =>
      obtain ⟨hends, hadd⟩ := add_of_foreign hf soFar
      rw [List.filter_cons_of_neg (by rw [hf]; decide), gather_cons hends, hadd]
      exact ih soFar
    | false =>
      rw [List.filter_cons_of_pos (by rw [hf]; rfl)]
      cases hends : line.ends sub with
      | true =>
        obtain ⟨exhausted, ending, hgather⟩ := gather_ends hends soFar
        rw [hgather, hgather]
      | false =>
        rw [gather_cons hends, gather_cons hends]
        exact ih _

theorem ofLines_filter (sub : String) (lines : List Line) :
    ofLines sub (lines.filter fun line => !line.isForeign sub) =
      let (reply, ending, rest) := ofLines sub lines
      (reply, ending, rest.filter fun line => !line.isForeign sub) := by
  simp only [ofLines, gather_filter]

theorem ofLines_append {front : List Line} (hf : ∀ line ∈ front, line.ends sub = false)
    (back : List Line) :
    ofLines sub (front ++ back) =
      let (reply, ending, rest) := gather sub
        { items := (Line.payloads sub front).reverse, garbled := Line.garbled front } back
      ({ reply with items := reply.items.reverse }, ending, rest) := by
  rw [ofLines, gather_append hf]
  simp

end Reply

namespace Line

variable {sub : String}

/-- The line at which a reply ends carries none of it. -/
theorem of_ends {line : Line} (h : line.ends sub = true) :
    line.payload? sub = none ∧ line.isGarbled = false := by
  simp only [ends] at h
  simp only [payload?, isGarbled]
  cases hf : line.frame? with
  | none => exact ⟨rfl, rfl⟩
  | some read =>
    rw [hf] at h
    cases read with
    | error fault => cases h
    | ok frame =>
      cases frame with
      | eose | closed => exact ⟨rfl, rfl⟩
      | event | notice => cases h

/-- An event is sent under one name. -/
theorem payload?_eq_none {line : Line} {other : String} (hs : other ≠ sub) {payload : Json}
    (h : line.payload? other = some payload) : line.payload? sub = none := by
  unfold payload? at h ⊢
  split at h
  · rename_i s _ hf
    split at h
    · rename_i he
      subst he
      exact if_neg hs
    · cases h
  · cases h

/-- The payloads under one name do not hang on the events that are sent under another one. -/
theorem payloads_filter {other : String} (hs : other ≠ sub) (lines : List Line) :
    payloads sub (lines.filter fun line => (line.payload? other).isNone) = payloads sub lines := by
  rw [payloads, List.filterMap_filter]
  refine List.filterMap_congr fun line _ => ?_
  cases h : line.payload? other with
  | none => rfl
  | some payload => exact (payload?_eq_none hs h).symm

/-- All lines up to the first one at which the reply ends, if there is one. -/
theorem exists_first (sub : String) (lines : List Line) :
    (∀ line ∈ lines, line.ends sub = false) ∨
      ∃ front line back, lines = front ++ line :: back ∧ line.ends sub = true ∧
        ∀ line ∈ front, line.ends sub = false := by
  induction lines with
  | nil => exact .inl fun _ h => (by cases h)
  | cons line lines ih =>
    cases h : line.ends sub with
    | true => exact .inr ⟨[], line, lines, rfl, h, fun _ hm => by cases hm⟩
    | false =>
      rcases ih with hall | ⟨front, last, back, rfl, hlast, hfront⟩
      · exact .inl (List.forall_mem_cons.mpr ⟨h, hall⟩)
      · exact .inr ⟨line :: front, last, back, rfl, hlast, List.forall_mem_cons.mpr ⟨h, hfront⟩⟩

end Line

/-- What is read is the front of the lines, and the reply is what it amounts to. -/
theorem Reply.ofLines_reads (sub : String) (lines : List Line) :
    ∃ read, lines = read ++ (ofLines sub lines).2.2 ∧
      (ofLines sub lines).1.items = Line.payloads sub read ∧
      (ofLines sub lines).1.garbled = Line.garbled read := by
  rcases Line.exists_first sub lines with hall | ⟨front, line, back, rfl, hline, hfront⟩
  · have h := ofLines_append hall []
    rw [List.append_nil] at h
    refine ⟨lines, ?_⟩
    rw [h]
    simp [gather]
  · obtain ⟨hpayload, hgarbled⟩ := Line.of_ends hline
    obtain ⟨exhausted, ending, hgather⟩ := gather_ends hline
      { items := (Line.payloads sub front).reverse, garbled := Line.garbled front }
    refine ⟨front ++ [line], ?_⟩
    rw [ofLines_append hfront, hgather]
    simp [Line.payloads, Line.garbled, hpayload, hgarbled]

/-! ## One reply -/

namespace Link

variable {l : Link} {sub : String} {front back : List Line}

theorem collect_eose (hl : l.halted = false) (hf : ∀ line ∈ front, line.ends sub = false)
    {content : String} (hd : RelayFrame.decode content = .ok (.eose sub))
    (hlines : l.lines = front ++ .text content :: back) :
    l.collect sub =
      ({ l with lines := back },
        .reply { items := Line.payloads sub front, garbled := Line.garbled front, exhausted := true }
          (some (.close sub))) := by
  rw [collect, hl, hlines, Reply.ofLines_append hf, Reply.gather_eose hd]
  simp

theorem collect_closed (hl : l.halted = false) (hf : ∀ line ∈ front, line.ends sub = false)
    {content reason : String} (hd : RelayFrame.decode content = .ok (.closed sub reason))
    (hlines : l.lines = front ++ .text content :: back) :
    l.collect sub = ({ l with lines := back }, .failed (.refused reason)) := by
  rw [collect, hl, hlines, Reply.ofLines_append hf, Reply.gather_closed hd]
  simp

theorem collect_broken (hl : l.halted = false) (hf : ∀ line ∈ front, line.ends sub = false)
    {fault : LineFault} (hlines : l.lines = front ++ .broken fault :: back) :
    l.collect sub =
      ({ l with lines := back, halted := true }, .failed (.reset fault.message)) := by
  rw [collect, hl, hlines, Reply.ofLines_append hf, Reply.gather]
  simp

/-- The stream has ended, or nothing more has come in yet. -/
theorem collect_ranOut (hl : l.halted = false) (hf : ∀ line ∈ l.lines, line.ends sub = false) :
    l.collect sub =
      let reply : Reply := { items := Line.payloads sub l.lines, garbled := Line.garbled l.lines }
      if l.hungUp then ({ l with lines := [], usable := false }, .reply reply none)
      else ({ l with lines := [] }, .waiting reply) := by
  have hall := Reply.ofLines_append hf []
  rw [List.append_nil] at hall
  rw [collect, hl, hall]
  simp [Reply.gather]

/-- What the answer is does not hang on lines that are for others. -/
theorem collect_congr {lines : List Line}
    (h : (lines.filter fun line => !line.isForeign sub) =
      l.lines.filter fun line => !line.isForeign sub) :
    (({ l with lines } : Link).collect sub).2 = (l.collect sub).2 := by
  have hboth : (Reply.ofLines sub lines).1 = (Reply.ofLines sub l.lines).1 ∧
      (Reply.ofLines sub lines).2.1 = (Reply.ofLines sub l.lines).2.1 := by
    have hl := Reply.ofLines_filter sub lines
    have hr := Reply.ofLines_filter sub l.lines
    rw [h, hr] at hl
    exact ⟨(congrArg (·.1) hl).symm, (congrArg (·.2.1) hl).symm⟩
  obtain ⟨hreply, hending⟩ := hboth
  rw [collect, collect]
  cases l.halted with
  | true => rfl
  | false =>
    dsimp only
    rw [hreply, hending]
    cases (Reply.ofLines sub l.lines).2.1 with
    | complete | refused | broken => rfl
    | ranOut => cases l.hungUp <;> rfl

/-- What is read is the front of the lines, and a reply is what it amounts to. -/
theorem collect_reads (l : Link) (sub : String) :
    ∃ read, l.lines = read ++ (l.collect sub).1.lines ∧ (l.collect sub).1.asked = l.asked ∧
      ∀ reply farewell, (l.collect sub).2 = .reply reply farewell →
        reply.items = Line.payloads sub read ∧ reply.garbled = Line.garbled read := by
  rw [collect]
  cases l.halted with
  | true =>
    refine ⟨[], rfl, rfl, fun reply farewell h => ?_⟩
    obtain ⟨rfl, -⟩ := Outcome.reply.inj h
    exact ⟨rfl, rfl⟩
  | false =>
    obtain ⟨read, hlines, hitems, hgarbled⟩ := Reply.ofLines_reads sub l.lines
    refine ⟨read, ?_⟩
    dsimp only
    cases (Reply.ofLines sub l.lines).2.1 with
    | complete =>
      refine ⟨hlines, rfl, fun reply farewell h => ?_⟩
      obtain ⟨rfl, -⟩ := Outcome.reply.inj h
      exact ⟨hitems, hgarbled⟩
    | refused | broken => exact ⟨hlines, rfl, fun _ _ h => by cases h⟩
    | ranOut =>
      cases l.hungUp with
      | false => exact ⟨hlines, rfl, fun _ _ h => by cases h⟩
      | true =>
        refine ⟨hlines, rfl, fun reply farewell h => ?_⟩
        obtain ⟨rfl, -⟩ := Outcome.reply.inj h
        exact ⟨hitems, hgarbled⟩

/-- After a broken line the stream looks ended once. -/
theorem collect_halted (hl : l.halted = true) :
    l.collect sub = ({ l with halted := false, usable := false }, .reply {} none) := by
  rw [collect, if_pos hl]

theorem subName_injective {i j : Nat} (h : subName i = subName j) : i = j := by
  have hlist := congrArg String.toList h
  simp only [subName, String.toList_append] at hlist
  have hnum := congrArg (fun ds => Nat.ofDigitChars 10 ds 0) (List.append_cancel_left hlist)
  simpa [Nat.toString_eq_ofList_toDigits] using hnum

/-- More lines may have come in; none was read and nothing was asked. -/
structure Fed (l l' : Link) : Prop where
  lines : ∃ came, l'.lines = l.lines ++ came
  asked : l'.asked = l.asked

theorem Fed.refl (l : Link) : Fed l l := ⟨⟨[], (List.append_nil _).symm⟩, rfl⟩

theorem Fed.trans {l l' l'' : Link} (h : Fed l l') (h' : Fed l' l'') : Fed l l'' := by
  obtain ⟨came, hcame⟩ := h.lines
  obtain ⟨more, hmore⟩ := h'.lines
  exact ⟨⟨came ++ more, by rw [hmore, hcame, List.append_assoc]⟩, h'.asked.trans h.asked⟩

theorem fed_receive (l : Link) (bytes : List UInt8) : Fed l (l.receive bytes) := by
  unfold receive
  split
  · exact .refl l
  · exact ⟨⟨_, rfl⟩, rfl⟩

theorem fed_hangUp (l : Link) : Fed l l.hangUp := by
  unfold hangUp
  split
  · exact .refl l
  · exact ⟨⟨_, rfl⟩, rfl⟩

end Link

/-! ## A row of queries -/

namespace Conversation

/-- What one query comes to on its connection: the name it was sent under, if it was sent, the lines
that came in after it, those that were read for it, and its answer. -/
structure Exchange where
  name : Option String
  came : List Line
  read : List Line
  answer : Except LinkFault Reply

/-- The conversation once the server has served a query. -/
def served (c : Conversation) (q : WindowQuery) : Conversation :=
  match c.link.ask q with
  | .error _ => c
  | .ok (link, _, frame) => ({ c with link }.hear frame).serve

def exchange (c : Conversation) (q : WindowQuery) : Exchange :=
  let lines := (c.served q).link.lines
  let (after, answer) := c.query q
  { name := if c.link.usable then some (Link.subName (c.link.asked + 1)) else none
    came := lines.drop c.link.lines.length
    read := lines.take (lines.length - after.link.lines.length)
    answer }

/-- Queries one after the other on the same connection, each whatever the one before came to. -/
def exchanges (c : Conversation) : List WindowQuery → List Exchange
  | [] => []
  | q :: qs => c.exchange q :: (c.query q).1.exchanges qs

def queryAll (c : Conversation) (qs : List WindowQuery) : Conversation :=
  qs.foldl (fun c q => (c.query q).1) c

variable {c : Conversation} {q : WindowQuery}

theorem fed_serve (c : Conversation) : c.link.Fed c.serve.link := by
  unfold serve
  split
  · exact .refl _
  · rename_i reply rest hreplies
    clear hreplies
    dsimp only
    generalize c.link = l
    induction reply generalizing l with
    | nil => exact .refl l
    | cons part reply ih =>
      refine .trans ?_ (ih _)
      cases part with
      | bytes bytes => exact l.fed_receive bytes
      | close => exact l.fed_hangUp

theorem query_turnedAway (h : c.link.usable = false) (q : WindowQuery) :
    c.query q = (c, .error Link.closedFault) := by
  simp [query, Link.ask, h]

theorem exchange_turnedAway (h : c.link.usable = false) (q : WindowQuery) :
    c.exchange q = { name := none, came := [], read := [], answer := .error Link.closedFault } := by
  simp [exchange, query_turnedAway h, served, Link.ask, h]

theorem fed_served (h : c.link.usable = true) (q : WindowQuery) :
    (∃ came, (c.served q).link.lines = c.link.lines ++ came) ∧
      (c.served q).link.asked = c.link.asked + 1 := by
  have hask : c.link.ask q = .ok ({ c.link with asked := c.link.asked + 1 },
      Link.subName (c.link.asked + 1), .req (Link.subName (c.link.asked + 1)) q.filter) := if_pos h
  rw [served, hask]
  have hfed := fed_serve
    (({ c with link := { c.link with asked := c.link.asked + 1 } } : Conversation).hear
      (.req (Link.subName (c.link.asked + 1)) q.filter))
  exact ⟨hfed.lines, hfed.asked⟩

/-- A query that is sent is answered with what is collected under its name. -/
theorem query_sent (h : c.link.usable = true) (q : WindowQuery) :
    let collected := (c.served q).link.collect (Link.subName (c.link.asked + 1))
    (c.query q).1.link.lines = collected.1.lines ∧
      (c.query q).1.link.asked = collected.1.asked ∧
      ∀ reply, (c.query q).2 = .ok reply → ∃ farewell, collected.2 = .reply reply farewell := by
  simp only [query, served, Link.ask, h, if_true]
  generalize Link.collect _ _ = collected
  obtain ⟨link, outcome⟩ := collected
  cases outcome with
  | reply reply farewell =>
    cases farewell with
    | none => exact ⟨rfl, rfl, fun _ he => ⟨none, by cases he; rfl⟩⟩
    | some frame => exact ⟨rfl, rfl, fun _ he => ⟨some frame, by cases he; rfl⟩⟩
  | failed | waiting => exact ⟨rfl, rfl, fun _ he => by cases he⟩

/-- What a query that is sent does: more lines come in, some of them are read, and a reply is what
these amount to. -/
theorem exchange_sent (h : c.link.usable = true) (q : WindowQuery) :
    (c.exchange q).name = some (Link.subName (c.link.asked + 1)) ∧
      (c.query q).1.link.asked = c.link.asked + 1 ∧
      c.link.lines ++ (c.exchange q).came = (c.exchange q).read ++ (c.query q).1.link.lines ∧
      ∀ reply, (c.exchange q).answer = .ok reply →
        reply.items =
            Line.payloads (Link.subName (c.link.asked + 1)) (c.exchange q).read ∧
          reply.garbled = Line.garbled (c.exchange q).read := by
  obtain ⟨⟨came, hcame⟩, hasked⟩ := fed_served h q
  obtain ⟨hleft, hkept, hanswer⟩ := query_sent h q
  obtain ⟨read, hread, hnext, hreply⟩ :=
    (c.served q).link.collect_reads (Link.subName (c.link.asked + 1))
  rw [← hleft] at hread
  have hcameEq : (c.exchange q).came = came := by
    rw [exchange]
    dsimp only
    rw [hcame, List.drop_left]
  have hreadEq : (c.exchange q).read = read := by
    rw [exchange]
    dsimp only
    rw [hread, List.length_append, Nat.add_sub_cancel, List.take_left]
  rw [hcameEq, hreadEq]
  refine ⟨if_pos h, by rw [hkept, hnext, hasked], by rw [← hcame, hread], fun reply ha => ?_⟩
  obtain ⟨farewell, hcollected⟩ := hanswer reply ha
  exact hreply reply farewell hcollected

/-- No line is lost and none is read twice: those that came in with the queries are read for them,
one query after the other, or are left for the next one. -/
theorem lines_exchanges (c : Conversation) (qs : List WindowQuery) :
    c.link.lines ++ (c.exchanges qs).flatMap (·.came) =
      (c.exchanges qs).flatMap (·.read) ++ (c.queryAll qs).link.lines := by
  induction qs generalizing c with
  | nil => exact List.append_nil _
  | cons q qs ih =>
    have hone : c.link.lines ++ (c.exchange q).came =
        (c.exchange q).read ++ (c.query q).1.link.lines := by
      cases h : c.link.usable with
      | true => exact (exchange_sent h q).2.2.1
      | false => simp [exchange_turnedAway h, query_turnedAway h]
    calc
      c.link.lines ++ (c.exchanges (q :: qs)).flatMap (·.came)
        = (c.link.lines ++ (c.exchange q).came) ++
            ((c.query q).1.exchanges qs).flatMap (·.came) := by simp [exchanges]
      _ = (c.exchange q).read ++ ((c.query q).1.link.lines ++
            ((c.query q).1.exchanges qs).flatMap (·.came)) := by rw [hone, List.append_assoc]
      _ = (c.exchanges (q :: qs)).flatMap (·.read) ++ (c.queryAll (q :: qs)).link.lines := by
        rw [ih, exchanges, List.flatMap_cons, List.append_assoc]
        rfl

/-- The names are numbered in the order of the queries. -/
theorem names_exchanges (c : Conversation) (qs : List WindowQuery) :
    ∃ count, (c.exchanges qs).filterMap (·.name) =
      (List.range' (c.link.asked + 1) count).map Link.subName := by
  induction qs generalizing c with
  | nil => exact ⟨0, rfl⟩
  | cons q qs ih =>
    obtain ⟨count, hcount⟩ := ih (c.query q).1
    cases h : c.link.usable with
    | true =>
      obtain ⟨hname, hasked, -⟩ := exchange_sent h q
      refine ⟨count + 1, ?_⟩
      rw [exchanges, List.filterMap_cons_some hname, hcount, hasked]
      rfl
    | false =>
      rw [query_turnedAway h] at hcount
      refine ⟨count, ?_⟩
      rw [exchanges, List.filterMap_cons_none (by rw [exchange_turnedAway h]), query_turnedAway h,
        hcount]

theorem nodup_names (c : Conversation) (qs : List WindowQuery) :
    ((c.exchanges qs).filterMap (·.name)).Nodup := by
  obtain ⟨count, hcount⟩ := c.names_exchanges qs
  rw [hcount]
  exact List.Nodup.map (fun _ _ h => Link.subName_injective h) List.nodup_range'

/-- Each reply is what was read for the query amounts to, under the name of the query. -/
theorem reply_exchanges (c : Conversation) (qs : List WindowQuery) :
    ∀ e ∈ c.exchanges qs, ∀ reply, e.answer = .ok reply →
      ∃ name, e.name = some name ∧ reply.items = Line.payloads name e.read ∧
        reply.garbled = Line.garbled e.read := by
  induction qs generalizing c with
  | nil => exact fun e he => by cases he
  | cons q qs ih =>
    refine List.forall_mem_cons.mpr ⟨fun reply ha => ?_, ih _⟩
    cases h : c.link.usable with
    | true =>
      obtain ⟨hname, -, -, hreply⟩ := exchange_sent h q
      exact ⟨_, hname, hreply reply ha⟩
    | false =>
      rw [exchange_turnedAway h] at ha
      cases ha

/-- Two queries are not sent under the same name. -/
theorem names_apart {qs : List WindowQuery} {i j : Nat} {e e' : Exchange} (hij : i ≠ j)
    (hi : (c.exchanges qs)[i]? = some e) (hj : (c.exchanges qs)[j]? = some e') {name other : String}
    (hname : e.name = some name) (hother : e'.name = some other) : other ≠ name := by
  have hpairs := List.pairwise_iff_getElem.mp (List.pairwise_filterMap.mp (c.nodup_names qs))
  obtain ⟨hilt, rfl⟩ := List.getElem?_eq_some_iff.mp hi
  obtain ⟨hjlt, rfl⟩ := List.getElem?_eq_some_iff.mp hj
  rcases Nat.lt_or_gt_of_ne hij with hlt | hgt
  · exact (hpairs i j hilt hjlt hlt name hname other hother).symm
  · exact hpairs j i hjlt hilt hgt other hother name hname

end Conversation

/-- **A reply is put together from the lines for its query alone.** These are its events in their
order and the number of lines that are no frames, up to the first frame that says that the reply is
complete or refused, up to a broken line, or up to the end of the stream; the lines after it are left.
Notices and frames under other names make no difference to the answer, wherever they stand. Of the
queries that follow each other on a connection no two are sent under the same name, each line is read
for one of them at most, and the reply to one stays the same without the events sent for another; this
last part is about conversations, in which whatever is sent goes through, so it does not cover queries
that the stream did not take. -/
theorem Link.replies_apart :
    (∀ (l : Link) (sub : String) (front back : List Line) (last : Line), l.halted = false →
      l.lines = front ++ last :: back → (∀ line ∈ front, line.ends sub = false) →
        (∀ content, last = .text content → RelayFrame.decode content = .ok (.eose sub) →
          l.collect sub =
            ({ l with lines := back },
              .reply { items := Line.payloads sub front, garbled := Line.garbled front
                       exhausted := true } (some (.close sub)))) ∧
        (∀ content reason, last = .text content →
          RelayFrame.decode content = .ok (.closed sub reason) →
            l.collect sub = ({ l with lines := back }, .failed (.refused reason))) ∧
        ∀ fault, last = .broken fault →
          l.collect sub =
            ({ l with lines := back, halted := true }, .failed (.reset fault.message))) ∧
    (∀ (l : Link) (sub : String), l.halted = false → (∀ line ∈ l.lines, line.ends sub = false) →
      l.collect sub =
        let reply : Reply :=
          { items := Line.payloads sub l.lines, garbled := Line.garbled l.lines }
        if l.hungUp then ({ l with lines := [], usable := false }, .reply reply none)
        else ({ l with lines := [] }, .waiting reply)) ∧
    (∀ (l : Link) (sub : String), l.halted = true →
      l.collect sub = ({ l with halted := false, usable := false }, .reply {} none)) ∧
    (∀ (l : Link) (sub : String) (lines : List Line),
      (lines.filter fun line => !line.isForeign sub) =
          (l.lines.filter fun line => !line.isForeign sub) →
        (({ l with lines } : Link).collect sub).2 = (l.collect sub).2) ∧
    ∀ (c : Conversation) (qs : List WindowQuery),
      c.link.lines ++ (c.exchanges qs).flatMap (·.came) =
          (c.exchanges qs).flatMap (·.read) ++ (c.queryAll qs).link.lines ∧
        ((c.exchanges qs).filterMap (·.name)).Nodup ∧
        (∀ e ∈ c.exchanges qs, ∀ reply, e.answer = .ok reply →
          ∃ name, e.name = some name ∧ reply.items = Line.payloads name e.read ∧
            reply.garbled = Line.garbled e.read) ∧
        ∀ (i j : Nat) (e e' : Conversation.Exchange) (name other : String), i ≠ j → (c.exchanges qs)[i]? = some e →
          (c.exchanges qs)[j]? = some e' → e.name = some name → e'.name = some other →
            ∀ reply, e.answer = .ok reply →
              reply.items =
                Line.payloads name (e.read.filter fun line => (line.payload? other).isNone) := by
  refine ⟨?_, fun l sub hl hf => collect_ranOut hl hf, fun l sub hl => collect_halted hl,
    fun l sub lines h => collect_congr h, fun c qs => ⟨c.lines_exchanges qs, c.nodup_names qs,
      c.reply_exchanges qs, ?_⟩⟩
  · rintro l sub front back last hl hlines hf
    refine ⟨?_, ?_, ?_⟩
    · rintro content rfl hd
      exact collect_eose hl hf hd hlines
    · rintro content reason rfl hd
      exact collect_closed hl hf hd hlines
    · rintro fault rfl
      exact collect_broken hl hf hlines
  · intro i j e e' name other hij hi hj hname hother reply ha
    obtain ⟨sent, hsent, hitems, -⟩ := c.reply_exchanges qs e (List.mem_of_getElem? hi) reply ha
    obtain rfl : sent = name := Option.some.inj (hsent.symm.trans hname)
    rw [Line.payloads_filter (Conversation.names_apart hij hi hj hname hother)]
    exact hitems

/-- An event of the first query comes in after the end of its reply, and one of the second query
before that. -/
theorem Link.replies_apart_stale :
    let lines : List Line := ["[\"EVENT\",\"rs1\",1]", "[\"EVENT\",\"rs2\",2]", "?",
      "[\"EOSE\",\"rs1\"]", "[\"EVENT\",\"rs1\",3]", "[\"EVENT\",\"rs2\",4]"].map .text
    let c : Conversation := { link := { lines, hungUp := true }, replies := [] }
    let first : Reply := { items := [.num (.int 1)], garbled := 1, exhausted := true }
    let second : Reply := { items := [.num (.int 4)] }
    ∃ e e', c.exchanges [⟨⟨0, 1⟩, 10⟩, ⟨⟨0, 1⟩, 10⟩] = [e, e'] ∧
      e.name = some "rs1" ∧ e.answer = .ok first ∧ e'.name = some "rs2" ∧ e'.answer = .ok second ∧
      e'.read = lines.drop 4 ∧
      second.items =
        Line.payloads "rs2" (e'.read.filter fun line => (line.payload? "rs1").isNone) := by
  intro lines c first second
  obtain ⟨hterminated, hended, -, -, hrow⟩ := replies_apart
  have h₁ : RelayFrame.decode "[\"EVENT\",\"rs1\",1]" = .ok (.event "rs1" (.num (.int 1))) := by
    cbv
  have h₂ : RelayFrame.decode "[\"EVENT\",\"rs2\",2]" = .ok (.event "rs2" (.num (.int 2))) := by
    cbv
  have h₃ : RelayFrame.decode "?" = .error .notJson := by cbv
  have h₄ : RelayFrame.decode "[\"EOSE\",\"rs1\"]" = .ok (.eose "rs1") := by cbv
  have h₅ : RelayFrame.decode "[\"EVENT\",\"rs1\",3]" = .ok (.event "rs1" (.num (.int 3))) := by
    cbv
  have h₆ : RelayFrame.decode "[\"EVENT\",\"rs2\",4]" = .ok (.event "rs2" (.num (.int 4))) := by
    cbv
  have hfirst : (Link.collect { c.link with asked := 1 } "rs1") =
      ({ lines := lines.drop 4, hungUp := true, asked := 1 }, .reply first (some (.close "rs1"))) := by
    rw [(hterminated { c.link with asked := 1 } "rs1" (lines.take 3) (lines.drop 4) _ rfl rfl
      (by simp [lines, Line.ends, Line.frame?, h₁, h₂, h₃, RelayFrame.ends])).1 _ rfl h₄]
    simp [c, lines, first, Line.payloads, Line.payload?, Line.garbled, Line.isGarbled, Line.frame?,
      h₁, h₂, h₃]
  have hsecond : (Link.collect { lines := lines.drop 4, hungUp := true, asked := 2 } "rs2") =
      ({ hungUp := true, asked := 2, usable := false }, .reply second none) := by
    rw [hended { lines := lines.drop 4, hungUp := true, asked := 2 } "rs2" rfl
      (by simp [lines, Line.ends, Line.frame?, h₅, h₆, RelayFrame.ends])]
    simp [lines, second, Line.payloads, Line.payload?, Line.garbled, Line.isGarbled, Line.frame?,
      h₅, h₆]
  let q : WindowQuery := ⟨⟨0, 1⟩, 10⟩
  have hone : Link.subName 1 = "rs1" := by decide +kernel
  have htwo : Link.subName 2 = "rs2" := by decide +kernel
  have hquery : c.query q =
      ({ link := { lines := lines.drop 4, hungUp := true, asked := 1 }, replies := []
         heard := [(ClientFrame.close "rs1").encode, (ClientFrame.req "rs1" q.filter).encode] },
        .ok first) := by
    simp only [Conversation.query, Link.ask, Conversation.hear, Conversation.serve, c, if_true]
    simp only [c] at hfirst
    simp only [Nat.zero_add, hone, hfirst]
  have hagain : (c.query q).1.query q =
      ({ link := { hungUp := true, asked := 2, usable := false }, replies := []
         heard := (ClientFrame.req "rs2" q.filter).encode :: (c.query q).1.heard },
        .ok second) := by
    rw [hquery]
    simp only [Conversation.query, Link.ask, Conversation.hear, Conversation.serve, if_true]
    simp only [Nat.reduceAdd, htwo, hsecond]
  have hexchanges : c.exchanges [q, q] =
      [{ name := some "rs1", came := [], read := lines.take 4, answer := .ok first },
        { name := some "rs2", came := [], read := lines.drop 4, answer := .ok second }] := by
    simp only [Conversation.exchanges, Conversation.exchange, hagain]
    simp only [hquery]
    simp [Conversation.served, Link.ask, Conversation.hear, Conversation.serve, hone, htwo, c, lines]
  obtain ⟨-, -, -, hapart⟩ := hrow c [q, q]
  rw [hexchanges] at hapart
  exact ⟨_, _, hexchanges, rfl, rfl, rfl, rfl, rfl,
    hapart 1 0 _ _ "rs2" "rs1" (by decide) rfl rfl rfl rfl second rfl⟩

end Harvest
