import Harvest.Link.Socks
import Harvest.Proofs.Text.Utf8
import Mathlib.Data.List.Infix

/-! What a proxy has to say for a tunnel to be opened, as a grammar of bytes. The handshake takes
exactly these bytes off the stream, however they were cut when they came in, and leaves all that
follows them; what it sends is read by a proxy as the address that was asked for. -/

namespace Harvest.Socks

/-! ## What a proxy says and hears -/

/-- The address that a proxy has bound, by its type: four bytes, a name behind its length, or
sixteen bytes. -/
inductive Bound : UInt8 → List UInt8 → Prop
  | v4 {address : List UInt8} : address.length = 4 → Bound 1 address
  | name {length : UInt8} {name : List UInt8} : name.length = length.toNat → Bound 3 (length :: name)
  | v6 {address : List UInt8} : address.length = 16 → Bound 4 address

/-- The choice of no authentication. -/
def chosen : List UInt8 := [5, 0]

/-- The answer of a proxy that has opened the tunnel: success, the bound address and its port. -/
inductive Opened : List UInt8 → Prop
  | intro (reserved type : UInt8) {address port : List UInt8} : Bound type address →
      port.length = 2 → Opened ([5, 0, reserved, type] ++ address ++ port)

/-- Reads a request to connect to a named host off the front of some bytes, as a proxy does. -/
def readRequest : List UInt8 → Option (Address × List UInt8)
  | version :: command :: _ :: type :: length :: rest =>
    if version = 5 ∧ command = 1 ∧ type = 3 ∧ length.toNat ≤ rest.length then
      match rest.drop length.toNat with
      | high :: low :: rest' =>
        (String.fromUTF8? (ByteArray.mk (rest.take length.toNat).toArray)).map fun host =>
          ({ host, port := UInt16.ofNat (256 * high.toNat + low.toNat) }, rest')
      | _ => none
    else none
  | _ => none

/-- Reads and drops the bound address, of this type, and its port: the last part of an answer. -/
def readAddress (type : UInt8) (chunks : Chunks) : Progress Unit :=
  if type = 1 then readBound 4 chunks
  else if type = 4 then readBound 16 chunks
  else if type = 3 then
    match take 1 chunks with
    | some ([n], rest) => readBound n.toNat rest
    | _ => .short
  else .failed (.badAddressType type) chunks

theorem readReply_eq (chunks : Chunks) :
    readReply chunks =
      match take 4 chunks with
      | some ([version, code, _, type], rest) =>
        if version ≠ 5 then .failed .badVersion rest
        else if code ≠ 0 then .failed (.connectFailed code) rest
        else readAddress type rest
      | _ => .short := rfl

/-! ## Bytes in pieces -/

variable {chunks others rest : Chunks} {back : List UInt8}

/-- Bytes are taken across the pieces as they would be off the whole. -/
theorem take_flatten (n : Nat) (chunks : Chunks) :
    (take n chunks).map (Prod.map id List.flatten) =
      if n ≤ chunks.flatten.length then some (chunks.flatten.take n, chunks.flatten.drop n)
      else none := by
  fun_induction take n chunks with
  | case1 chunks => simp
  | case2 n => simp
  | case3 n chunk rest h ih =>
    have hchunk : chunk.length ≤ n + 1 := by omega
    have hfits : n + 1 ≤ (chunk ++ rest.flatten).length ↔
        n + 1 - chunk.length ≤ rest.flatten.length := by
      rw [List.length_append]
      omega
    calc
      _ = ((take (n + 1 - chunk.length) rest).map (Prod.map id List.flatten)).map
          fun (bytes, rest) => (chunk ++ bytes, rest) := by
        rw [Option.map_map, Option.map_map]
        rfl
      _ = if n + 1 ≤ (chunk ++ rest.flatten).length then
          some ((chunk ++ rest.flatten).take (n + 1), (chunk ++ rest.flatten).drop (n + 1))
          else none := by
        rw [ih, List.take_append, List.take_of_length_le hchunk, List.drop_append,
          List.drop_of_length_le hchunk, List.nil_append]
        simp only [hfits]
        split <;> rfl
  | case4 n chunk rest h =>
    have hn : n + 1 ≤ chunk.length := by omega
    have hfits : n + 1 ≤ (chunk :: rest).flatten.length := by
      rw [List.flatten_cons, List.length_append]
      omega
    rw [Option.map_some, if_pos hfits, List.flatten_cons, List.take_append_of_le_length hn,
      List.drop_append_of_le_length hn]
    rfl

theorem take_of_flatten {n : Nat} {front : List UInt8} (hn : front.length = n)
    (h : chunks.flatten = front ++ back) :
    ∃ rest, take n chunks = some (front, rest) ∧ rest.flatten = back := by
  have htake := take_flatten n chunks
  rw [h, if_pos (by rw [List.length_append]; omega), ← hn, List.take_left, List.drop_left,
    Option.map_eq_some_iff] at htake
  obtain ⟨⟨bytes, rest⟩, hsome, heq⟩ := htake
  obtain ⟨rfl, hrest⟩ := Prod.mk.inj heq
  exact ⟨rest, hn ▸ hsome, hrest⟩

theorem flatten_of_take {n : Nat} {front : List UInt8} (h : take n chunks = some (front, rest)) :
    front.length = n ∧ chunks.flatten = front ++ rest.flatten := by
  have htake := take_flatten n chunks
  rw [h, Option.map_some] at htake
  split at htake
  · rename_i hn
    have hpair : (front, rest.flatten) = (chunks.flatten.take n, chunks.flatten.drop n) :=
      Option.some.inj htake
    obtain ⟨rfl, hrest⟩ := Prod.mk.inj hpair
    exact ⟨List.length_take_of_le hn, by rw [hrest, List.take_append_drop]⟩
  · cases htake

/-- What is taken does not hang on how the bytes were cut. -/
theorem take_congr (h : chunks.flatten = others.flatten) (n : Nat) :
    take n chunks = none ∧ take n others = none ∨
      ∃ bytes rest rest', take n chunks = some (bytes, rest) ∧ take n others = some (bytes, rest') ∧
        rest.flatten = rest'.flatten := by
  have heq := take_flatten n chunks
  rw [h, ← take_flatten n others] at heq
  cases hc : take n chunks with
  | none =>
    rw [hc] at heq
    exact .inl ⟨rfl, Option.map_eq_none_iff.mp heq.symm⟩
  | some taken =>
    rw [hc] at heq
    obtain ⟨⟨bytes, rest'⟩, ho, hpair⟩ := Option.map_eq_some_iff.mp heq.symm
    obtain ⟨rfl, hrest⟩ := Prod.mk.inj hpair
    exact .inr ⟨_, _, _, rfl, ho, hrest.symm⟩

/-- The same came of both, apart from how the bytes are cut that are left. -/
inductive Progress.Alike {α : Type} : Progress α → Progress α → Prop
  | short : Alike .short .short
  | failed (fault : Fault) {rest rest' : Chunks} : rest.flatten = rest'.flatten →
      Alike (.failed fault rest) (.failed fault rest')
  | done (value : α) {rest rest' : Chunks} : rest.flatten = rest'.flatten →
      Alike (.done value rest) (.done value rest')

theorem readChoice_congr (h : chunks.flatten = others.flatten) :
    (readChoice chunks).Alike (readChoice others) := by
  unfold readChoice
  rcases take_congr h 2 with ⟨hc, ho⟩ | ⟨bytes, rest, rest', hc, ho, hrest⟩
  · rw [hc, ho]
    exact .short
  · rw [hc, ho]
    obtain ⟨version, method, rfl⟩ := List.length_eq_two.mp (flatten_of_take hc).1
    dsimp only
    split
    · exact .done () hrest
    · exact .failed _ hrest

theorem readBound_congr (h : chunks.flatten = others.flatten) (n : Nat) :
    (readBound n chunks).Alike (readBound n others) := by
  unfold readBound
  rcases take_congr h (n + 2) with ⟨hc, ho⟩ | ⟨bytes, rest, rest', hc, ho, hrest⟩
  · rw [hc, ho]
    exact .short
  · rw [hc, ho]
    exact .done () hrest

theorem readAddress_congr (h : chunks.flatten = others.flatten) (type : UInt8) :
    (readAddress type chunks).Alike (readAddress type others) := by
  unfold readAddress
  split
  · exact readBound_congr h 4
  split
  · exact readBound_congr h 16
  split
  · rcases take_congr h 1 with ⟨hc, ho⟩ | ⟨length, rest, rest', hc, ho, hrest⟩
    · rw [hc, ho]
      exact .short
    · rw [hc, ho]
      obtain ⟨n, rfl⟩ := List.length_eq_one_iff.mp (flatten_of_take hc).1
      exact readBound_congr hrest n.toNat
  · exact .failed _ h

theorem readReply_congr (h : chunks.flatten = others.flatten) :
    (readReply chunks).Alike (readReply others) := by
  rw [readReply_eq, readReply_eq]
  rcases take_congr h 4 with ⟨hc, ho⟩ | ⟨bytes, rest, rest', hc, ho, hrest⟩
  · rw [hc, ho]
    exact .short
  · rw [hc, ho]
    obtain ⟨version, code, reserved, type, rfl⟩ := List.length_eq_four.mp (flatten_of_take hc).1
    dsimp only
    split
    · exact .failed _ hrest
    split
    · exact .failed _ hrest
    · exact readAddress_congr hrest type

/-! ## What is taken off the stream -/

theorem readChoice_of_chosen (h : chunks.flatten = chosen ++ back) :
    ∃ rest, readChoice chunks = .done () rest ∧ rest.flatten = back := by
  obtain ⟨rest, htake, hrest⟩ := take_of_flatten (n := 2) rfl h
  refine ⟨rest, ?_, hrest⟩
  rw [readChoice, htake]
  rfl

theorem chosen_of_readChoice (h : readChoice chunks = .done () rest) :
    chunks.flatten = chosen ++ rest.flatten := by
  unfold readChoice at h
  split at h
  · rename_i version method left htake
    split at h
    · rename_i hchosen
      obtain ⟨rfl, rfl⟩ := hchosen
      cases h
      exact (flatten_of_take htake).2
    · cases h
  · cases h

theorem exists_readChoice_iff :
    (∃ rest, readChoice chunks = .done () rest) ↔ chosen <+: chunks.flatten := by
  constructor
  · rintro ⟨rest, h⟩
    exact ⟨_, (chosen_of_readChoice h).symm⟩
  · rintro ⟨back, h⟩
    obtain ⟨rest, hrest, -⟩ := readChoice_of_chosen h.symm
    exact ⟨rest, hrest⟩

theorem readBound_of_length {n : Nat} {bound : List UInt8} (hn : bound.length = n + 2)
    (h : chunks.flatten = bound ++ back) :
    ∃ rest, readBound n chunks = .done () rest ∧ rest.flatten = back := by
  obtain ⟨rest, htake, hrest⟩ := take_of_flatten hn h
  refine ⟨rest, ?_, hrest⟩
  rw [readBound, htake]

theorem length_of_readBound {n : Nat} (h : readBound n chunks = .done () rest) :
    ∃ bytes port, bytes.length = n ∧ port.length = 2 ∧
      chunks.flatten = bytes ++ port ++ rest.flatten := by
  unfold readBound at h
  split at h
  · rename_i bound left htake
    cases h
    obtain ⟨hlen, hflatten⟩ := flatten_of_take htake
    refine ⟨bound.take n, bound.drop n, ?_, ?_, ?_⟩
    · exact List.length_take_of_le (by omega)
    · rw [List.length_drop]
      omega
    · rw [List.take_append_drop, hflatten]
  · cases h

theorem readAddress_of_bound {type : UInt8} {address port : List UInt8} (hb : Bound type address)
    (hport : port.length = 2) (h : chunks.flatten = address ++ port ++ back) :
    ∃ rest, readAddress type chunks = .done () rest ∧ rest.flatten = back := by
  cases hb with
  | v4 hlen => exact readBound_of_length (by rw [List.length_append, hlen, hport]) h
  | v6 hlen => exact readBound_of_length (by rw [List.length_append, hlen, hport]) h
  | name hlen =>
    rename_i length name
    rw [List.cons_append, List.cons_append, ← List.singleton_append] at h
    obtain ⟨left, hlength, hleft⟩ := take_of_flatten (n := 1) rfl h
    rw [readAddress, if_neg (by decide), if_neg (by decide), if_pos rfl, hlength]
    exact readBound_of_length (by rw [List.length_append, hlen, hport]) hleft

theorem bound_of_readAddress {type : UInt8} (h : readAddress type chunks = .done () rest) :
    ∃ address port, Bound type address ∧ port.length = 2 ∧
      chunks.flatten = address ++ port ++ rest.flatten := by
  unfold readAddress at h
  split at h
  · rename_i htype
    subst htype
    obtain ⟨address, port, hlen, hport, hflatten⟩ := length_of_readBound h
    exact ⟨address, port, .v4 hlen, hport, hflatten⟩
  split at h
  · rename_i htype
    subst htype
    obtain ⟨address, port, hlen, hport, hflatten⟩ := length_of_readBound h
    exact ⟨address, port, .v6 hlen, hport, hflatten⟩
  split at h
  · rename_i htype
    subst htype
    split at h
    · rename_i length left hlength
      obtain ⟨name, port, hlen, hport, hleft⟩ := length_of_readBound h
      refine ⟨length :: name, port, .name hlen, hport, ?_⟩
      rw [(flatten_of_take hlength).2, hleft]
      rfl
    · cases h
  · cases h

/-- An answer that opens the tunnel is taken, and nothing behind it. -/
theorem readReply_of_opened {reply : List UInt8} (hr : Opened reply)
    (h : chunks.flatten = reply ++ back) :
    ∃ rest, readReply chunks = .done () rest ∧ rest.flatten = back := by
  obtain ⟨reserved, type, hbound, hport⟩ := hr
  rw [List.append_assoc, List.append_assoc] at h
  obtain ⟨left, htake, hleft⟩ := take_of_flatten (n := 4) rfl h
  rw [← List.append_assoc] at hleft
  rw [readReply_eq, htake]
  exact readAddress_of_bound hbound hport hleft

/-- Nothing but an answer that opens the tunnel is taken for one. -/
theorem opened_of_readReply (h : readReply chunks = .done () rest) :
    ∃ reply, Opened reply ∧ chunks.flatten = reply ++ rest.flatten := by
  rw [readReply_eq] at h
  split at h
  · rename_i version code reserved type left htake
    split at h
    · cases h
    split at h
    · cases h
    · rename_i hversion hcode
      obtain rfl : version = 5 := not_not.mp hversion
      obtain rfl : code = 0 := not_not.mp hcode
      obtain ⟨address, port, hbound, hport, hleft⟩ := bound_of_readAddress h
      refine ⟨_, .intro reserved type hbound hport, ?_⟩
      rw [(flatten_of_take htake).2, hleft]
      simp
  · cases h

/-! ## The request -/

/-- A port is told by its two bytes. -/
theorem ofNat_bytes (port : UInt16) :
    UInt16.ofNat (256 * (port >>> 8).toUInt8.toNat + port.toUInt8.toNat) = port := by
  have hport : port.toNat < 65536 := port.toNat_lt
  have hhigh : (port >>> 8).toUInt8.toNat = port.toNat / 256 := by
    rw [UInt16.toNat_toUInt8, UInt16.toNat_shiftRight, Nat.shiftRight_eq_div_pow]
    show port.toNat / 256 % 256 = port.toNat / 256
    omega
  have hlow : port.toUInt8.toNat = port.toNat % 256 := UInt16.toNat_toUInt8 port
  rw [hhigh, hlow, Nat.div_add_mod, UInt16.ofNat_toNat]

/-- **A request is read by a proxy as the address that was asked for**, whatever follows it. -/
theorem readRequest_request {a : Address} (h : (hostBytes a).length ≤ 255) (more : List UInt8) :
    readRequest (request a ++ more) = some (a, more) := by
  have hlength : (UInt8.ofNat (hostBytes a).length).toNat = (hostBytes a).length :=
    UInt8.toNat_ofNat_of_lt' (show (hostBytes a).length < 256 by omega)
  have hrequest : request a ++ more =
      5 :: 1 :: 0 :: 3 :: UInt8.ofNat (hostBytes a).length ::
        (hostBytes a ++ (a.port >>> 8).toUInt8 :: a.port.toUInt8 :: more) := by
    simp [request]
  have hhost : String.fromUTF8? (ByteArray.mk (hostBytes a).toArray) = some a.host :=
    Text.fromUTF8?_bytes a.host
  rw [hrequest, readRequest, if_pos ⟨rfl, rfl, rfl, by rw [hlength, List.length_append]; omega⟩,
    hlength, List.drop_left, List.take_left, hhost]
  simp only [Option.map_some, ofNat_bytes]

/-! ## The handshake -/

variable {a : Address}

/-- The exchange does not hang on how the bytes were cut. -/
theorem connect_congr (a : Address) (h : chunks.flatten = others.flatten) :
    connect a chunks = connect a others := by
  unfold connect
  rw [h]
  have hchoice := readChoice_congr h
  generalize readChoice chunks = choice at hchoice ⊢
  generalize readChoice others = choice' at hchoice ⊢
  cases hchoice with
  | short => rfl
  | failed fault hrest =>
    dsimp only
    rw [hrest]
  | done value hrest =>
    rename_i rest rest'
    have hreply := readReply_congr hrest
    dsimp only
    generalize readReply rest = reply at hreply ⊢
    generalize readReply rest' = reply' at hreply ⊢
    cases hreply with
    | short => rfl
    | failed fault hrest =>
      dsimp only
      rw [hrest]
    | done value hrest =>
      dsimp only
      rw [hrest]

theorem connect_of_granted (ha : (hostBytes a).length ≤ 255) {reply : List UInt8}
    (hr : Opened reply) (h : chunks.flatten = chosen ++ reply ++ back) :
    connect a chunks = { result := .ok (), sent := greeting ++ request a, unread := back } := by
  rw [List.append_assoc] at h
  obtain ⟨left, hchoice, hleft⟩ := readChoice_of_chosen h
  obtain ⟨rest, hreply, hrest⟩ := readReply_of_opened hr hleft
  have hfits : (!hostFits a) = false := by simp [hostFits, ha]
  simp only [connect, hfits, hchoice, hreply, hrest]
  rfl

theorem granted_of_connect (h : (connect a chunks).result = .ok ()) :
    (hostBytes a).length ≤ 255 ∧
      ∃ reply, Opened reply ∧ chunks.flatten = chosen ++ reply ++ (connect a chunks).unread := by
  unfold connect at h ⊢
  split at h
  · cases h
  · rename_i hfits
    have ha : (hostBytes a).length ≤ 255 := by simpa [hostFits] using hfits
    rw [if_neg hfits]
    dsimp only at h ⊢
    refine ⟨ha, ?_⟩
    split at h
    · cases h
    · cases h
    · rename_i left hchoice
      split at h
      · cases h
      · cases h
      · rename_i rest hreply
        obtain ⟨reply, hopened, hleft⟩ := opened_of_readReply hreply
        refine ⟨reply, hopened, ?_⟩
        rw [chosen_of_readChoice hchoice, hleft, List.append_assoc]

/-- What is sent: nothing for a host that is too long, and the request only where the proxy has
made its choice. -/
theorem sent_connect (a : Address) (chunks : Chunks) :
    (connect a chunks).sent =
      if (hostBytes a).length ≤ 255 then
        if chosen <+: chunks.flatten then greeting ++ request a else greeting
      else [] := by
  have hchosen : (∃ rest, readChoice chunks = .done () rest) ↔ chosen <+: chunks.flatten :=
    exists_readChoice_iff
  unfold connect
  by_cases ha : (hostBytes a).length ≤ 255
  · have hfits : (!hostFits a) = false := by simp [hostFits, ha]
    simp only [hfits, if_pos ha]
    cases hchoice : readChoice chunks with
    | short | failed =>
      have hnot : ¬ chosen <+: chunks.flatten := by
        rw [← hchosen, hchoice]
        rintro ⟨rest, h⟩
        cases h
      rw [if_neg hnot]
      rfl
    | done value rest =>
      rw [if_pos (hchosen.mp ⟨rest, hchoice⟩)]
      dsimp only
      cases readReply rest <;> rfl
  · have hlong : (!hostFits a) = true := by simp [hostFits, ha]
    rw [if_pos hlong, if_neg ha]

/-- **The handshake takes exactly what its grammar says.** It succeeds if and only if the host has at
most 255 bytes and the stream begins with the choice of no authentication and an answer that opens
the tunnel; then these bytes are taken and all others are left, and what was sent is the greeting
and a request that is read as this address. The request is not sent before the choice is there, and
nothing at all for a longer host. How the bytes were cut when they came in makes no difference. -/
theorem handshake_exact (a : Address) :
    (∀ chunks, (connect a chunks).result = .ok () ↔
      (hostBytes a).length ≤ 255 ∧ ∃ reply, Opened reply ∧ chosen ++ reply <+: chunks.flatten) ∧
    (∀ chunks reply back, (hostBytes a).length ≤ 255 → Opened reply →
      chunks.flatten = chosen ++ reply ++ back →
        connect a chunks = { result := .ok (), sent := [5, 1, 0] ++ request a, unread := back } ∧
          ∀ more, readRequest (request a ++ more) = some (a, more)) ∧
    (∀ chunks, (connect a chunks).sent =
      if (hostBytes a).length ≤ 255 then
        if chosen <+: chunks.flatten then [5, 1, 0] ++ request a else [5, 1, 0]
      else []) ∧
    ∀ chunks others, chunks.flatten = others.flatten → connect a chunks = connect a others := by
  refine ⟨fun chunks => ⟨fun h => ?_, ?_⟩, fun chunks reply back ha hr h =>
    ⟨connect_of_granted ha hr h, readRequest_request ha⟩, sent_connect a,
    fun chunks others h => connect_congr a h⟩
  · obtain ⟨ha, reply, hr, hflatten⟩ := granted_of_connect h
    exact ⟨ha, reply, hr, _, hflatten.symm⟩
  · rintro ⟨ha, reply, hr, back, hflatten⟩
    rw [connect_of_granted ha hr hflatten.symm]

/-- The proxy answers with a name of two bytes; its answer comes in pieces that end anywhere, the last
of them with two bytes of the tunnel. -/
theorem handshake_exact_pieces :
    let a : Address := { host := "relay.onion", port := 7447 }
    let reply : List UInt8 := [5, 0, 0, 3, 2, 104, 105, 0, 80]
    let chunks : Chunks := [[5], [0, 5, 0], [], [0, 3, 2, 104], [105, 0, 80, 91, 34]]
    (hostBytes a).length ≤ 255 ∧ Opened reply ∧ chunks.flatten = chosen ++ reply ++ [91, 34] ∧
      connect a chunks = { result := .ok (), sent := [5, 1, 0] ++ request a, unread := [91, 34] } ∧
      readRequest (request a ++ [7]) = some (a, [7]) ∧
      connect a chunks = connect a [chosen ++ reply ++ [91, 34]] := by
  intro a reply chunks
  obtain ⟨-, htaken, -, hpieces⟩ := handshake_exact a
  have ha : (hostBytes a).length ≤ 255 := by decide +kernel
  have hbound : Bound 3 [2, 104, 105] := .name rfl
  have hport : ([0, 80] : List UInt8).length = 2 := rfl
  have hr : Opened reply := .intro 0 3 hbound hport
  obtain ⟨hconnect, hread⟩ := htaken chunks reply [91, 34] ha hr rfl
  exact ⟨ha, hr, rfl, hconnect, hread [7], hpieces chunks _ rfl⟩

end Harvest.Socks
