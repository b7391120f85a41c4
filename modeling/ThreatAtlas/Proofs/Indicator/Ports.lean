import ThreatAtlas.Proofs.Indicator.Addresses
import ThreatAtlas.Proofs.Text.Split

/-!
# Addresses with ports

An address with ports is four groups of digits with dots between them, a colon, and ports with commas
between them. It is told apart from every other text, and it can be read in one way: a line feed at its end
is the only thing that does not count.
-/

namespace ThreatAtlas.Indicator

open Pattern (Takes)
open Text (isDecimal)

/-- An address and the ports behind it, with commas between them. -/
structure PortedAddress where
  address : Address
  list : String
  filled : list ≠ ""
  decimal : ∀ c ∈ list.toList, isDecimal c = true ∨ c = ','

namespace PortedAddress

def ip (p : PortedAddress) : String :=
  p.address.dotted

def ports (p : PortedAddress) : List String :=
  Text.split ',' p.list

def written (p : PortedAddress) : String :=
  p.ip ++ ":" ++ p.list

def WrittenAs (p : PortedAddress) (s : String) : Prop :=
  s = p.written ∨ s = p.written ++ "\n"

def socket (p : PortedAddress) (port : String) : String :=
  p.ip ++ ":" ++ port

end PortedAddress

variable {cs rest : List Char} {before : Option Char} {s : String}

private theorem takes_plainAddress :
    Takes plainAddress before cs rest ↔ ∃ a : Address, cs = a.chars fun _ => ['.'] := by
  simp only [plainAddress, Pattern.sequence, Pattern.takes_seq, Pattern.takes_char,
    takes_upToThreeDigits]
  constructor
  · rintro ⟨_, _, rfl, ⟨g, rfl⟩, _, _, rfl, rfl, _, _, rfl, ⟨g₁, rfl⟩, _, _, rfl, rfl, _, _, rfl, ⟨g₂, rfl⟩,
      _, _, rfl, rfl, g₃, rfl⟩
    exact ⟨⟨g, [(.plain, g₁), (.plain, g₂), (.plain, g₃)], rfl⟩, by simp [Address.chars, OtherGroups.chars]⟩
  · rintro ⟨⟨g, others, hfour⟩, rfl⟩
    obtain ⟨⟨_, g₁⟩, ⟨_, g₂⟩, ⟨_, g₃⟩, rfl⟩ := List.length_eq_three.mp hfour
    exact ⟨g.digits, _, rfl, ⟨g, rfl⟩, ['.'], _, rfl, rfl, g₁.digits, _, rfl, ⟨g₁, rfl⟩, ['.'], _, rfl, rfl,
      g₂.digits, _, rfl, ⟨g₂, rfl⟩, ['.'], _, rfl, rfl, g₃, by simp⟩

private theorem takes_finish : Takes .finish before cs rest ↔ cs = [] ∧ (rest = [] ∨ rest = ['\n']) := by
  constructor
  · intro h
    cases h with
    | finish atEnd => exact ⟨rfl, by simpa [Pattern.Place.isFinish] using atEnd⟩
  · rintro ⟨rfl, hend⟩
    exact .finish (by simpa [Pattern.Place.isFinish] using hend)

theorem PortedAddress.toList_written (p : PortedAddress) :
    p.written.toList = p.ip.toList ++ ':' :: p.list.toList := by
  simp [written]

theorem PortedAddress.toList_ip (p : PortedAddress) : p.ip.toList = p.address.chars fun _ => ['.'] := by
  simp [ip, Address.dotted]

private theorem takes_addressWithPorts : Takes addressWithPorts before cs rest ↔
      (∃ p : PortedAddress, cs = p.written.toList) ∧ (rest = [] ∨ rest = ['\n']) := by
  simp only [addressWithPorts, Pattern.sequence, Pattern.takes_seq, takes_plainAddress,
    Pattern.takes_char, Pattern.takes_span, takes_finish]
  constructor
  · rintro ⟨_, _, rfl, ⟨a, rfl⟩, _, _, rfl, rfl, ports, _, rfl, ⟨hports, hfilled, -⟩, rfl, hend⟩
    refine ⟨⟨⟨a, String.ofList ports, ?_, ?_⟩, ?_⟩, hend⟩
    · intro hempty
      obtain rfl : ports = [] := by simpa using congrArg String.toList hempty
      cases hfilled
    · simpa using hports
    · simp [PortedAddress.toList_written, PortedAddress.toList_ip]
  · rintro ⟨⟨p, rfl⟩, hend⟩
    have hlength : 1 ≤ p.list.toList.length :=
      List.length_pos_iff.mpr fun hnil => p.filled (String.toList_eq_nil_iff.mp hnil)
    refine ⟨p.address.chars fun _ => ['.'], ':' :: p.list.toList, ?_, ⟨p.address, rfl⟩, [':'], _, rfl, rfl,
      p.list.toList, [], (List.append_nil _).symm, ⟨?_, hlength, by simp⟩, rfl, hend⟩
    · rw [p.toList_written, p.toList_ip]
    · simpa using p.decimal

theorem matchesStart_addressWithPorts :
    addressWithPorts.matchesStart s = true ↔ ∃ p : PortedAddress, p.WrittenAs s := by
  have hproductive : addressWithPorts.isProductive = true := by decide
  rw [Pattern.matchesStart, Pattern.isSome_match?_iff hproductive]
  constructor
  · rintro ⟨taken, rest, hs, htaken⟩
    obtain ⟨⟨p, rfl⟩, hend⟩ := takes_addressWithPorts.mp htaken
    refine ⟨p, ?_⟩
    rcases hend with rfl | rfl
    · exact .inl (String.toList_injective (by simpa using hs))
    · exact .inr (String.toList_injective (by simpa using hs))
  · rintro ⟨p, rfl | rfl⟩
    · exact ⟨_, [], (List.append_nil _).symm, takes_addressWithPorts.mpr ⟨⟨p, rfl⟩, .inl rfl⟩⟩
    · exact ⟨_, ['\n'], by simp, takes_addressWithPorts.mpr ⟨⟨p, rfl⟩, .inr rfl⟩⟩

namespace PortedAddress

theorem notMem_ip (p : PortedAddress) {c : Char} (hdecimal : isDecimal c = false) (hdot : c ≠ '.') :
    c ∉ p.ip.toList := by
  rw [p.toList_ip, Address.mem_chars_iff hdecimal]
  rintro ⟨s, -, hc⟩
  exact hdot (List.mem_singleton.mp hc)

theorem notMem_list (p : PortedAddress) {c : Char} (hdecimal : isDecimal c = false) (hcomma : c ≠ ',') :
    c ∉ p.list.toList := by
  intro hc
  rcases p.decimal c hc with h | h
  · rw [h] at hdecimal
    cases hdecimal
  · exact hcomma h

end PortedAddress

theorem splitPorts?_of_writtenAs {p : PortedAddress} (h : p.WrittenAs s) :
    splitPorts? s = some (p.ip, p.list) := by
  have hcolon : ':' ∉ p.ip.toList := p.notMem_ip (by decide) (by decide)
  have hfeed : ∀ c, p.list.toList.getLast? = some c → (c == '\n') = false := by
    intro c hc
    rw [beq_eq_false_iff_ne]
    rintro rfl
    exact p.notMem_list (by decide) (by decide) (List.mem_of_getLast? hc)
  obtain ⟨stop, hs, hstop⟩ : ∃ stop, s.toList = p.ip.toList ++ ':' :: (p.list.toList ++ stop) ∧
      ∀ c ∈ stop, (c == '\n') = true := by
    rcases h with rfl | rfl
    · exact ⟨[], by simp [p.toList_written], by simp⟩
    · exact ⟨['\n'], by simp [p.toList_written], by simp⟩
  rw [splitPorts?, if_pos (matchesStart_addressWithPorts.mpr ⟨p, h⟩), Text.cut?, hs,
    show ":".toList = [':'] from rfl, Text.cutChars_append_cons hcolon]
  simp [Text.trimEndChars_append hfeed hstop]

theorem splitPorts?_of_not_writtenAs (h : ∀ p : PortedAddress, ¬ p.WrittenAs s) : splitPorts? s = none := by
  rw [splitPorts?, if_neg]
  rw [matchesStart_addressWithPorts]
  exact fun hp => hp.elim h

namespace PortedAddress

variable {p : PortedAddress}

private theorem decimal_of_mem_ports {port : String} (h : port ∈ p.ports) :
    ∀ c ∈ port.toList, isDecimal c = true := by
  obtain ⟨piece, hpiece, rfl⟩ := List.mem_map.mp h
  intro c hc
  rw [String.toList_ofList] at hc
  rcases p.decimal c (Text.mem_of_mem_splitChars hpiece hc) with hdecimal | rfl
  · exact hdecimal
  · exact absurd hc (Text.notMem_of_mem_splitChars hpiece)

theorem strip_of_mem_ports {port : String} (h : port ∈ p.ports) : Text.strip port = port := by
  have hblank : ∀ c ∈ port.toList, Text.isBlank c = false :=
    fun c hc => Text.isBlank_of_isDecimal (decimal_of_mem_ports h c hc)
  have hkept := Text.stripChars_padded (List.forall_mem_nil _) (List.forall_mem_nil _)
    (Text.bare_of_forall hblank)
  rw [List.nil_append, List.append_nil] at hkept
  rw [Text.strip, hkept, String.ofList_toList]

private theorem toList_socket (p : PortedAddress) (port : String) :
    (p.socket port).toList = p.ip.toList ++ ':' :: port.toList := by
  simp [socket]

private theorem ip_ne_socket (p q : PortedAddress) (port : String) : p.ip ≠ q.socket port := by
  intro h
  refine p.notMem_ip (c := ':') (by decide) (by decide) ?_
  rw [h, toList_socket]
  simp

theorem socket_inj {q : PortedAddress} {a b : String} : p.socket a = q.socket b ↔ p.ip = q.ip ∧ a = b := by
  constructor
  · intro h
    have hlist := congrArg String.toList h
    rw [toList_socket, toList_socket] at hlist
    have hcut := Text.cutChars_append_cons (p.notMem_ip (c := ':') (by decide) (by decide)) a.toList
    rw [hlist, Text.cutChars_append_cons (q.notMem_ip (by decide) (by decide)), Option.some_inj,
      Prod.mk.injEq] at hcut
    exact ⟨String.toList_injective hcut.1.symm, String.toList_injective hcut.2.symm⟩
  · rintro ⟨hip, rfl⟩
    rw [socket, socket, hip]

def names (p : PortedAddress) : List String :=
  p.ip :: p.ports.map p.socket

theorem nodup_names_iff (p : PortedAddress) : p.names.Nodup ↔ p.ports.Nodup := by
  have hsockets : (p.ports.map p.socket).Nodup ↔ p.ports.Nodup :=
    List.nodup_map_iff fun a b h => (socket_inj.mp h).2
  have haddress : p.ip ∉ p.ports.map p.socket := by
    intro h
    obtain ⟨port, -, heq⟩ := List.mem_map.mp h
    exact p.ip_ne_socket p port heq.symm
  rw [names, List.nodup_cons, hsockets]
  exact and_iff_right haddress

theorem disjoint_names_iff (p q : PortedAddress) : p.names.Disjoint q.names ↔ p.ip ≠ q.ip := by
  constructor
  · intro h hip
    exact h List.mem_cons_self (hip ▸ List.mem_cons_self)
  · intro hip name hp hq
    rcases List.mem_cons.mp hp with rfl | hp <;> rcases List.mem_cons.mp hq with hq | hq
    · exact hip hq
    · obtain ⟨b, -, heq⟩ := List.mem_map.mp hq
      exact p.ip_ne_socket q b heq.symm
    · obtain ⟨a, -, heq⟩ := List.mem_map.mp hp
      exact q.ip_ne_socket p a (hq.symm.trans heq.symm)
    · obtain ⟨a, -, ha⟩ := List.mem_map.mp hp
      obtain ⟨b, -, hb⟩ := List.mem_map.mp hq
      exact hip (socket_inj.mp (ha.trans hb.symm)).1

theorem WrittenAs.unique {q : PortedAddress} {s : String} (hp : p.WrittenAs s) (hq : q.WrittenAs s) :
    p.ip = q.ip ∧ p.ports = q.ports := by
  have h := (splitPorts?_of_writtenAs hp).symm.trans (splitPorts?_of_writtenAs hq)
  rw [Option.some_inj, Prod.mk.injEq] at h
  exact ⟨h.1, by rw [ports, ports, h.2]⟩

end PortedAddress

end ThreatAtlas.Indicator
