import Tensorpipe.SockaddrProofs

/-! # The grammar of socket addresses

    An IPv4 address, an IPv4 address and a port, an IPv6 address, an IPv6 address in brackets,
    and one in brackets with a port.  A text of these forms is cut as it was put together,
    except for an IPv6 address with periods that has no brackets.

    What is taken for a port or an address can be less than the text, so more is accepted than
    the grammar says.  `Misread` lists the shapes of such texts, and the others are read exactly
    as the grammar says (`reads_exactly_iff`); what `str` prints is read back whole
    (`str_round_trip`). -/

namespace TpSockaddr

open TpText

variable {A4 A6 : Type}

-- ── The grammar ──────────────────────────────────────────────────────────────

/-- A text in which brackets can stand around an address. -/
structure Plain (s : List Char) : Prop where
  no_null : '\x00' ∉ s
  no_open : '[' ∉ s
  no_close : ']' ∉ s

/-- The texts of bare addresses: what the library converts, without brackets. -/
structure Addresses (text4 : List Char → Option A4) (text6 : List Char → Option (A6 × UInt32))
    (four : List Char → A4 → Prop) (six : List Char → A6 → UInt32 → Prop) : Prop where
  four_iff : ∀ s addr, four s addr ↔ Plain s ∧ text4 s = some addr
  six_iff : ∀ s addr scope, six s addr scope ↔ Plain s ∧ text6 s = some (addr, scope)

/-- An IPv4 address is digits and periods; an IPv6 address has colons, no period in front of
    the first, and if it begins with one it begins with two. -/
structure Textual {α β : Type} (pton4 : List Char → Option α) (pton6 : List Char → Option β) :
    Prop where
  period : ∀ s addr, pton4 s = some addr → '.' ∈ s
  digits : ∀ s addr, pton4 s = some addr → ∀ c ∈ s, c.isDigit = true ∨ c = '.'
  colon : ∀ s addr, pton6 s = some addr → ':' ∈ s
  no_period : ∀ s t addr, pton6 (s ++ ':' :: t) = some addr → ':' ∉ s → '.' ∉ s
  two_colons : ∀ t addr, pton6 (':' :: t) = some addr → t.head? = some ':'

/-- The text of an IPv4 address has no colon. -/
theorem Textual.no_colon {α β : Type} {pton4 : List Char → Option α}
    {pton6 : List Char → Option β} (h : Textual pton4 pton6) {s : List Char} {addr : α}
    (hs : pton4 s = some addr) : ':' ∉ s := by
  intro hmem
  rcases h.digits s addr hs ':' hmem with hdigit | heq
  · exact absurd hdigit (by decide)
  · exact absurd heq (by decide)

/-- A text that the library converts to an address. -/
def Known (text4 : List Char → Option A4) (text6 : List Char → Option (A6 × UInt32))
    (s : List Char) : Prop :=
  text4 s ≠ none ∨ text6 s ≠ none

/-- What the reading relies on, of the texts of bare addresses. -/
structure Forms (four : List Char → A4 → Prop) (six : List Char → A6 → UInt32 → Prop) :
    Prop where
  period : ∀ {s addr}, four s addr → '.' ∈ s
  no_colon : ∀ {s addr}, four s addr → ':' ∉ s
  colon : ∀ {s addr scope}, six s addr scope → ':' ∈ s
  no_period : ∀ {s t addr scope}, six (s ++ ':' :: t) addr scope → ':' ∉ s → '.' ∉ s
  two_colons : ∀ {t addr scope}, six (':' :: t) addr scope → t.head? = some ':'

/-- A number has digits only. -/
theorem not_mem_of_digits {p : List Char} {n : Nat} (h : Digits p n) {c : Char}
    (hc : c.isDigit = false) : c ∉ p := by
  intro hmem
  rw [h.isDigit c hmem] at hc
  exact nomatch hc

section Grammar

variable {ip4 ip6 : List Char → UInt16 → Option (Sockaddr A4 A6)}
  {text4 : List Char → Option A4} {text6 : List Char → Option (A6 × UInt32)}
  {four : List Char → A4 → Prop} {six : List Char → A6 → UInt32 → Prop}
  (haddresses : Addresses text4 text6 four six) (hforms : Forms four six)

include haddresses

/-- An IPv4 text is converted to its address. -/
theorem convert_four {s : List Char} {addr : A4} (h : four s addr) (port : UInt16) :
    convert text4 text6 s port = some (.inet addr (htons port)) := by
  rw [convert, ((haddresses.four_iff s addr).mp h).2]

include hforms

/-- An IPv6 text is no IPv4 text. -/
theorem text4_eq_none {s : List Char} {addr : A6} {scope : UInt32} (h : six s addr scope) :
    text4 s = none := by
  obtain ⟨hplain, -⟩ := (haddresses.six_iff s addr scope).mp h
  cases hconv : text4 s with
  | none => rfl
  | some found =>
      have hfour := (haddresses.four_iff s found).mpr ⟨hplain, hconv⟩
      exact absurd (hforms.colon h) (hforms.no_colon hfour)

/-- An IPv6 text is converted to its address. -/
theorem convert_six {s : List Char} {addr : A6} {scope : UInt32} (h : six s addr scope)
    (port : UInt16) : convert text4 text6 s port = some (.inet6 addr scope (htons port)) := by
  rw [convert, text4_eq_none haddresses hforms h, ((haddresses.six_iff s addr scope).mp h).2]
  rfl

/-- An IPv4 text with a port is cut before it. -/
theorem splitAddress_four_port {s p : List Char} {addr : A4} {n : Nat} (h : four s addr)
    (hp : Digits p n) : splitAddress (s ++ ':' :: p) = (s, p) := by
  have hplain := ((haddresses.four_iff s addr).mp h).1
  have hopen : '[' ∉ s ++ ':' :: p := by
    rw [List.mem_append, List.mem_cons, not_or, not_or]
    exact ⟨hplain.no_open, by decide, not_mem_of_digits hp (by decide)⟩
  have hne : s ≠ [] := List.ne_nil_of_mem (hforms.period h)
  rw [splitAddress_dotted hopen (hforms.no_colon h)
    (List.mem_append.mpr (Or.inl (hforms.period h))), if_neg hne]

/-- The brackets of an IPv6 text with a port are taken off. -/
theorem splitAddress_six_port {s p : List Char} {addr : A6} {scope : UInt32}
    (h : six s addr scope) : splitAddress ('[' :: s ++ ']' :: ':' :: p) = (s, p) :=
  splitAddress_bracketed (List.ne_nil_of_mem (hforms.colon h))
    ((haddresses.six_iff s addr scope).mp h).1.no_close Behind.port

/-- The library has no address for the empty text. -/
theorem Known.ne_nil {s : List Char} (h : Known text4 text6 s) : s ≠ [] := by
  rintro rfl
  have hplain : Plain [] := ⟨List.not_mem_nil, List.not_mem_nil, List.not_mem_nil⟩
  rcases h with hfour | hsix
  · obtain ⟨found, hfound⟩ := Option.ne_none_iff_exists'.mp hfour
    exact absurd (hforms.period ((haddresses.four_iff [] found).mpr ⟨hplain, hfound⟩))
      List.not_mem_nil
  · obtain ⟨found, hfound⟩ := Option.ne_none_iff_exists'.mp hsix
    exact absurd (hforms.colon ((haddresses.six_iff [] found.1 found.2).mpr ⟨hplain, hfound⟩))
      List.not_mem_nil

end Grammar

-- ── The grammar of each transport ────────────────────────────────────────────

/-- A text that the library converts as it stands. -/
def Bare {α : Type} (pton : List Char → Option α) (s : List Char) (addr : α) : Prop :=
  Plain s ∧ pton s = some addr

/-- What libuv's documentation says of its conversions: they convert the text of an address,
    which for IPv6 can name a scope, and store the port in network byte order. -/
structure UvLibrary.Documented (lib : UvLibrary A4 A6) (text4 : List Char → Option A4)
    (text6 : List Char → Option (A6 × UInt32)) : Prop where
  ip4Addr : ∀ s port, lib.ip4Addr s port = (text4 s).map fun addr => .inet addr (htons port)
  ip6Addr : ∀ s port,
    lib.ip6Addr s port = (text6 s).map fun addr => .inet6 addr.1 addr.2 (htons port)
  textual : Textual text4 text6

/-- The text of an IPv6 address, and of an interface behind a `%`. -/
inductive InetLibrary.Scoped (lib : InetLibrary A4 A6) : List Char → A6 → UInt32 → Prop
  | plain {s addr} (h : Bare lib.pton6 s addr) (hscope : '%' ∉ s) : Scoped lib s addr 0
  | zoned {s addr name} (hplain : Plain (s ++ '%' :: name)) (hscope : '%' ∉ s)
      (h : lib.pton6 s = some addr) :
      Scoped lib (s ++ '%' :: name) addr (lib.ifNametoindex name)

/-- The first part of a plain text is plain. -/
theorem Plain.left {s t : List Char} (h : Plain (s ++ t)) : Plain s :=
  ⟨fun hm => h.no_null (List.mem_append_left _ hm),
    fun hm => h.no_open (List.mem_append_left _ hm),
    fun hm => h.no_close (List.mem_append_left _ hm)⟩

/-- The code's reading of a scope, on a text that is cut at its first `%`. -/
theorem InetLibrary.scopedAddr_cut (lib : InetLibrary A4 A6) {s name : List Char}
    (hplain : Plain (s ++ '%' :: name)) (hscope : '%' ∉ s) :
    lib.scopedAddr (s ++ '%' :: name)
      = (lib.pton6 s).map fun addr => (addr, lib.ifNametoindex name) := by
  have hname : '\x00' ∉ name := by
    intro hm
    exact hplain.no_null (List.mem_append_right _ (List.mem_cons_of_mem _ hm))
  have hlater : (s ++ '%' :: name).drop (s.length + 1) = name := by
    rw [List.drop_append, List.drop_eq_nil_of_le (Nat.le_succ _), Nat.add_sub_cancel_left,
      List.nil_append, List.drop_succ_cons, List.drop_zero]
  simp only [InetLibrary.scopedAddr, idxOf?_append_cons hscope, List.take_left, hlater,
    cStr_eq hplain.left.no_null, cStr_eq hname]

/-- What the code makes of a text with a scope. -/
theorem InetLibrary.scopedAddr_iff (lib : InetLibrary A4 A6) (s : List Char) (addr : A6)
    (scope : UInt32) : lib.Scoped s addr scope ↔ Plain s ∧ lib.scopedAddr s = some (addr, scope)
    := by
  constructor
  · intro h
    cases h with
    | plain h hscope =>
        refine ⟨h.1, ?_⟩
        rw [InetLibrary.scopedAddr, List.idxOf?_eq_none_iff.mpr hscope, cStr_eq h.1.no_null, h.2]
        rfl
    | zoned hplain hscope h =>
        refine ⟨hplain, ?_⟩
        rw [lib.scopedAddr_cut hplain hscope, h]
        rfl
  · rintro ⟨hplain, h⟩
    by_cases hscope : '%' ∈ s
    · obtain ⟨before, name, rfl, hbefore⟩ := List.eq_append_cons_of_mem hscope
      rw [lib.scopedAddr_cut hplain hbefore] at h
      obtain ⟨found, hfound, heq⟩ := Option.map_eq_some_iff.mp h
      obtain ⟨rfl, rfl⟩ := Prod.mk.inj heq
      exact InetLibrary.Scoped.zoned hplain hbefore hfound
    · rw [InetLibrary.scopedAddr, List.idxOf?_eq_none_iff.mpr hscope, cStr_eq hplain.no_null] at h
      obtain ⟨found, hfound, heq⟩ := Option.map_eq_some_iff.mp h
      obtain ⟨rfl, rfl⟩ := Prod.mk.inj heq
      exact InetLibrary.Scoped.plain ⟨hplain, hfound⟩ hscope

/-- On the text of a bare address nothing is lost when it becomes a C string. -/
theorem bare_iff {α : Type} (pton : List Char → Option α) (s : List Char) (addr : α) :
    Bare pton s addr ↔ Plain s ∧ pton (cStr s) = some addr :=
  and_congr_right fun hplain => by rw [cStr_eq hplain.no_null]

/-- The texts of addresses are those that stop at no zero. -/
theorem addresses_of_cStr (text4 : List Char → Option A4)
    (text6 : List Char → Option (A6 × UInt32)) :
    Addresses (fun s => text4 (cStr s)) (fun s => text6 (cStr s)) (Bare text4)
      (fun s addr scope => Bare text6 s (addr, scope)) where
  four_iff := bare_iff text4
  six_iff := fun s addr scope => bare_iff text6 s (addr, scope)

/-- The texts of addresses have the forms that the grammar relies on. -/
theorem Textual.forms {text4 : List Char → Option A4} {text6 : List Char → Option (A6 × UInt32)}
    (h : Textual text4 text6) :
    Forms (Bare text4) (fun s addr scope => Bare text6 s (addr, scope)) where
  period := fun h4 => h.period _ _ h4.2
  no_colon := fun h4 => h.no_colon h4.2
  colon := fun h6 => h.colon _ _ h6.2
  no_period := fun h6 => h.no_period _ _ _ h6.2
  two_colons := fun h6 => h.two_colons _ _ h6.2

/-- libuv converts the texts of the library. -/
theorem UvLibrary.Documented.converts {lib : UvLibrary A4 A6} {text4 : List Char → Option A4}
    {text6 : List Char → Option (A6 × UInt32)} (h : lib.Documented text4 text6) :
    Converts (fun addrStr => lib.ip4Addr (cStr addrStr))
      (fun addrStr => lib.ip6Addr (cStr addrStr)) (fun s => text4 (cStr s))
      (fun s => text6 (cStr s)) where
  four := fun s port => h.ip4Addr (cStr s) port
  six := fun s port => h.ip6Addr (cStr s) port

/-- The conversion of ibv, in terms of the library. -/
theorem InetLibrary.converts (lib : InetLibrary A4 A6) :
    Converts (fun addrStr port =>
        (lib.pton4 (cStr addrStr)).map fun addr => Sockaddr.inet addr (htons port))
      (fun addrStr port =>
        (lib.scopedAddr addrStr).map fun addr => .inet6 addr.1 addr.2 (htons port))
      (fun s => lib.pton4 (cStr s)) lib.scopedAddr where
  four := fun _ _ => rfl
  six := fun _ _ => rfl

/-- The addresses of ibv, in terms of the library. -/
theorem InetLibrary.addresses (lib : InetLibrary A4 A6) :
    Addresses (fun s => lib.pton4 (cStr s)) lib.scopedAddr (Bare lib.pton4) lib.Scoped where
  four_iff := bare_iff lib.pton4
  six_iff := lib.scopedAddr_iff

/-- The texts of ibv have the forms that the grammar relies on. -/
theorem InetLibrary.forms (lib : InetLibrary A4 A6) (h : Textual lib.pton4 lib.pton6) :
    Forms (Bare lib.pton4) lib.Scoped where
  period := fun h4 => h.period _ _ h4.2
  no_colon := fun h4 => h.no_colon h4.2
  colon := by
    intro s addr scope h6
    cases h6 with
    | plain h6 _ => exact h.colon _ _ h6.2
    | zoned _ _ h6 => exact List.mem_append_left _ (h.colon _ _ h6)
  no_period := by
    intro s t addr scope h6 hcolon
    generalize hstr : s ++ ':' :: t = str at h6
    cases h6 with
    | plain h6 _ => exact h.no_period _ _ _ (hstr ▸ h6.2) hcolon
    | @zoned before _ name _ _ h6 =>
        -- the first colon stands in front of the scope
        obtain ⟨lead, rest, rfl, hlead⟩ := List.eq_append_cons_of_mem (h.colon _ _ h6)
        rw [List.append_assoc, List.cons_append] at hstr
        have hsame : s = lead := cut_unique hcolon hlead hstr
        exact hsame ▸ h.no_period _ _ _ h6 hlead
  two_colons := by
    intro t addr scope h6
    generalize hstr : ':' :: t = str at h6
    cases h6 with
    | plain h6 _ => exact h.two_colons _ _ (hstr ▸ h6.2)
    | @zoned before _ name _ _ h6 =>
        cases before with
        | nil => exact absurd (h.colon _ _ h6) List.not_mem_nil
        | cons c rest =>
            obtain ⟨rfl, rfl⟩ := List.cons.inj hstr
            have hhead := h.two_colons _ _ h6
            cases rest with
            | nil => exact nomatch hhead
            | cons d rest => exact hhead

/-- Conversions given by tables of texts. -/
theorem textual_lookup {α β : Type} {four : List (List Char × α)} {six : List (List Char × β)}
    (hfour : ∀ e ∈ four, '.' ∈ e.1 ∧ e.1.all (fun c => c.isDigit || c == '.') = true)
    (hsix : ∀ e ∈ six, ':' ∈ e.1 ∧ '.' ∉ e.1.takeWhile (· != ':') ∧
      (e.1.head? = some ':' → e.1.tail.head? = some ':')) :
    Textual (fun s => four.lookup s) (fun s => six.lookup s) := by
  have hmem : ∀ {γ : Type} {table : List (List Char × γ)} {s : List Char} {x : γ},
      table.lookup s = some x → (s, x) ∈ table := by
    intro γ table s x h
    obtain ⟨before, after, rfl, -⟩ := List.lookup_eq_some_iff.mp h
    exact List.mem_append_right _ List.mem_cons_self
  refine ⟨?_, ?_, ?_, ?_, ?_⟩
  · exact fun s addr h => (hfour _ (hmem h)).1
  · intro s addr h c hc
    have hall := List.all_eq_true.mp (hfour _ (hmem h)).2 c hc
    exact (Bool.or_eq_true_iff.mp hall).imp_right beq_iff_eq.mp
  · exact fun s addr h => (hsix _ (hmem h)).1
  · intro s t addr h hcolon hperiod
    refine (hsix _ (hmem h)).2.1 ?_
    have hall : ∀ c ∈ s, (c != ':') = true :=
      fun c hc => bne_iff_ne.mpr (fun heq => hcolon (heq ▸ hc))
    rw [List.takeWhile_append_of_pos hall]
    exact List.mem_append_left _ hperiod
  · exact fun t addr h => (hsix _ (hmem h)).2.2 rfl

/-- Texts of one IPv4 and two IPv6 addresses, and of a scope. -/
def sampleFour : List (List Char × UInt32) := [(['1', '.', '2', '.', '3', '.', '4'], 16909060)]

/-- Two IPv6 texts, the second of them with a period. -/
def sampleSix : List (List Char × Nat) :=
  [([':', ':', '1'], 1),
    ([':', ':', 'f', 'f', 'f', 'f', ':', '1', '.', '2', '.', '3', '.', '4'], 281470698652420)]

/-- The same, and the first of them with a scope. -/
def sampleScoped : List (List Char × (Nat × UInt32)) :=
  ([':', ':', '1', '%', 'l', 'o'], 1, 1) :: sampleSix.map fun e => (e.1, e.2, 0)

/-- A library of these texts. -/
def sampleInet : InetLibrary UInt32 Nat where
  pton4 := fun s => sampleFour.lookup s
  pton6 := fun s => sampleSix.lookup s
  ntop4 := fun addr => (sampleFour.map fun e => (e.2, e.1)).lookup addr
  ntop6 := fun addr => (sampleSix.map fun e => (e.2, e.1)).lookup addr
  ifNametoindex := fun name => if name = ['l', 'o'] then 1 else 0
  ifIndextoname := fun scope => if scope = 1 then some ['l', 'o'] else none

/-- libuv on these texts. -/
def sampleUv : UvLibrary UInt32 Nat where
  ip4Addr := fun s port => (sampleFour.lookup s).map fun addr => .inet addr (htons port)
  ip6Addr := fun s port =>
    (sampleScoped.lookup s).map fun addr => .inet6 addr.1 addr.2 (htons port)
  ip4Name := sampleInet.ntop4
  ip6Name := sampleInet.ntop6
  ifIndextoiid := sampleInet.ifIndextoname

/-- These texts are as documented. -/
theorem sampleInet_textual : Textual sampleInet.pton4 sampleInet.pton6 :=
  textual_lookup (by decide) (by decide)

/-- These conversions are as documented. -/
theorem sampleUv_documented :
    sampleUv.Documented (fun s => sampleFour.lookup s) (fun s => sampleScoped.lookup s) :=
  ⟨fun _ _ => rfl, fun _ _ => rfl, textual_lookup (by decide) (by decide)⟩

/-- The library has names for the parts of the address, which are texts of them. -/
def Named (four : List Char → A4 → Prop) (six : List Char → A6 → UInt32 → Prop)
    (name4 : A4 → Option (List Char)) (name6 : A6 → Option (List Char))
    (ifName : UInt32 → Option (List Char)) : Sockaddr A4 A6 → Prop
  | .inet addr _ => ∃ text, name4 addr = some text ∧ four text addr
  | .inet6 addr scope _ => ∃ text, name6 addr = some text ∧
      if 0 < scope then
        ∃ name, ifName scope = some name ∧ six (text ++ '%' :: name) addr scope
      else six text addr 0
  | .other _ => False

section RoundTrip

variable {ip4 ip6 : List Char → UInt16 → Option (Sockaddr A4 A6)}
  {text4 : List Char → Option A4} {text6 : List Char → Option (A6 × UInt32)}
  {four : List Char → A4 → Prop} {six : List Char → A6 → UInt32 → Prop}
  (haddresses : Addresses text4 text6 four six) (hforms : Forms four six)
  (hconverts : Converts ip4 ip6 text4 text6)

include haddresses hforms hconverts

/-- The port comes back through the byte order of the network. -/
theorem reads_dotted {text : List Char} {addr : A4} (h : four text addr) (port : UInt16) :
    createInetSockAddr ip4 ip6 (text ++ ':' :: decimal (htons port).toNat)
      = .ok (.inet addr port) := by
  have hlt : (htons port).toNat ≤ 65535 := Nat.le_of_lt_succ (htons port).toNat_lt
  have hdigits := digits_decimal (htons port).toNat
  rw [createInetSockAddr_ok hconverts
    (splitAddress_four_port haddresses hforms h hdigits) (parsePort_of_digits hdigits hlt)
    (convert_four haddresses h _), UInt16.ofNat_toNat, htons_htons]

/-- A bracketed IPv6 text with a port is read back. -/
theorem reads_bracketed {text : List Char} {addr : A6} {scope : UInt32}
    (h : six text addr scope) (port : UInt16) :
    createInetSockAddr ip4 ip6 ('[' :: text ++ ']' :: ':' :: decimal (htons port).toNat)
      = .ok (.inet6 addr scope port) := by
  have hlt : (htons port).toNat ≤ 65535 := Nat.le_of_lt_succ (htons port).toNat_lt
  have hdigits := digits_decimal (htons port).toNat
  rw [createInetSockAddr_ok hconverts
    (splitAddress_six_port haddresses hforms h) (parsePort_of_digits hdigits hlt)
    (convert_six haddresses hforms h _), UInt16.ofNat_toNat, htons_htons]

/-- What is printed of a named address is read back. -/
theorem createInetSockAddr_str {name4 : A4 → Option (List Char)}
    {name6 : A6 → Option (List Char)} {ifName : UInt32 → Option (List Char)}
    (failed : Exception) {addr : Sockaddr A4 A6}
    (h : Named four six name4 name6 ifName addr) :
    ∃ text, str name4 name6 ifName failed addr = .ok text ∧
      createInetSockAddr ip4 ip6 text = .ok addr := by
  cases addr with
  | inet a port =>
      obtain ⟨text, hname, hfour⟩ := h
      refine ⟨_, ?_, reads_dotted haddresses hforms hconverts hfour port⟩
      rw [str, hname]
  | inet6 a scope port =>
      obtain ⟨text, hname, hsix⟩ := h
      by_cases hscope : 0 < scope
      · rw [if_pos hscope] at hsix
        obtain ⟨name, hif, hsix⟩ := hsix
        refine ⟨_, ?_, reads_bracketed haddresses hforms hconverts hsix port⟩
        rw [str, hname]
        simp only [if_pos hscope, hif]
      · rw [if_neg hscope] at hsix
        have hzero : scope = 0 := UInt32.le_zero_iff.mp (UInt32.not_lt.mp hscope)
        subst hzero
        refine ⟨_, ?_, reads_bracketed haddresses hforms hconverts hsix port⟩
        rw [str, hname]
        simp only [if_neg hscope]
  | other family => exact absurd h not_false

end RoundTrip

/-- **The address that a listener prints is the one that a peer reads**, in both transports:
    an IPv4 or an IPv6 address and its port, with the scope that the library has a name for. -/
theorem str_round_trip (uv : UvLibrary A4 A6) (text4 : List Char → Option A4)
    (text6 : List Char → Option (A6 × UInt32)) (huv : uv.Documented text4 text6)
    (inet : InetLibrary A4 A6) (hinet : Textual inet.pton4 inet.pton6) (addr : Sockaddr A4 A6) :
    (Named (Bare text4) (fun s addr scope => Bare text6 s (addr, scope)) uv.ip4Name uv.ip6Name
        uv.ifIndextoiid addr →
      ∃ text, uv.str addr = .ok text ∧ uv.createInetSockAddr text = .ok addr) ∧
    (Named (Bare inet.pton4) inet.Scoped inet.ntop4 inet.ntop6 inet.ifIndextoname addr →
      ∃ text, inet.str addr = .ok text ∧ inet.createInetSockAddr text = .ok addr) := by
  constructor
  · intro h
    exact createInetSockAddr_str (addresses_of_cStr text4 text6) huv.textual.forms huv.converts
      .runtime h
  · intro h
    exact createInetSockAddr_str inet.addresses (inet.forms hinet) inet.converts .system h

/-- The address of `[::1%lo]:80`. -/
def scopedSample : Sockaddr UInt32 Nat := .inet6 1 1 (htons 80)

theorem str_round_trip_of_scoped :
    (∃ text, sampleUv.str scopedSample = .ok text ∧
      sampleUv.createInetSockAddr text = .ok scopedSample) ∧
    (∃ text, sampleInet.str scopedSample = .ok text ∧
      sampleInet.createInetSockAddr text = .ok scopedSample) := by
  have hround := str_round_trip sampleUv _ _ sampleUv_documented sampleInet sampleInet_textual
    scopedSample
  have hplain : Plain ([':', ':', '1'] ++ '%' :: ['l', 'o']) :=
    ⟨by decide, by decide, by decide⟩
  have huv : Bare (fun s => sampleScoped.lookup s) ([':', ':', '1'] ++ '%' :: ['l', 'o'])
      ((1 : Nat), (1 : UInt32)) := ⟨hplain, by decide⟩
  have hinet : sampleInet.Scoped ([':', ':', '1'] ++ '%' :: ['l', 'o']) 1 1 :=
    .zoned hplain (by decide) (by decide)
  exact ⟨hround.1 ⟨[':', ':', '1'], rfl, ['l', 'o'], rfl, huv⟩,
    hround.2 ⟨[':', ':', '1'], rfl, ['l', 'o'], rfl, hinet⟩⟩

end TpSockaddr
