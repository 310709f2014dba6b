import FluxGuard.Model.Metrics
import FluxGuard.Proof.World

/-!
# The metrics text round trip

What the dashboard reads from the exporter's text is what the exporter's state holds, for any
counters and any labels that are address texts.

* `parseLine_packets`, `parseLine_blocked`: what one kind of line adds.
* `metrics_roundtrip`: the whole text.
-/

namespace FluxGuard

/-! ## Labels -/

/-- A label that needs no escape and stays on its line. -/
structure PlainLabel (ip : Text) : Prop where
  quote : '\x22' ∉ ip
  backslash : '\x5c' ∉ ip
  line : OneLine ip

/-- An address text is made of hexadecimal digits, dots and colons. -/
theorem Source.not_mem_text (s : Source) {c : Char} (hc : hexVal c = none) (hdot : c ≠ '.') (hcolon : c ≠ ':') :
    c ∉ s.text := by
  intro hm
  -- an IPv4 text joins digits with dots, an IPv6 text hexadecimal digits with colons
  cases s with
  | v4 a =>
    rcases mem_intercalate hm with hm | ⟨l, hl, hm⟩
    · exact hdot hm
    · obtain ⟨b, -, rfl⟩ := List.mem_map.1 hl
      exact not_mem_toDigits hc (by decide) (by decide) hm
  | v6 a =>
    have hlen : (hextetsOf a.toList).length = 8 := by rw [length_hextetsOf]; simp
    obtain ⟨-, -, hdigit⟩ := partsHextets_compressHextets hlen fun n hn => lt_of_mem_hextetsOf hn
    rcases mem_intercalate hm with hm | ⟨l, hl, hm⟩
    · exact hcolon hm
    · exact hdigit l hl c hc hm

/-- **Address texts are plain labels.** -/
theorem Source.plain (s : Source) : PlainLabel s.text where
  quote := s.not_mem_text (by decide) (by decide) (by decide)
  backslash := s.not_mem_text (by decide) (by decide) (by decide)
  line := by
    have hbreaks : ['\n', '\r', '\x0b', '\x0c', '\x1c', '\x1d', '\x1e', '\u0085', '\u2028', '\u2029'].all
        (fun c => hexVal c = none ∧ c ≠ '.' ∧ c ≠ ':') = true := by decide
    intro c hc
    by_contra hline
    rw [Bool.not_eq_false] at hline
    obtain ⟨hhex, hdot, hcolon⟩ := of_decide_eq_true (List.all_eq_true.1 hbreaks c (of_decide_eq_true hline))
    exact s.not_mem_text hhex hdot hcolon hc

/-- An address is a plain label. -/
theorem plain_of_text {ip : Text} (h : ∃ s : Source, s.text = ip) : PlainLabel ip := by
  obtain ⟨s, rfl⟩ := h
  exact s.plain

/-- A plain label is written as it is. -/
theorem PlainLabel.safe {ip : Text} (h : PlainLabel ip) : FluxGuard.safe ip = ip := by
  unfold FluxGuard.safe
  rw [replaceChar_of_not_mem _ h.backslash, replaceChar_of_not_mem _ h.quote]

/-! ## Parts of a line -/

/-- The number at the end of a line. -/
theorem lastInt_append {p : Text} (h : p.getLast? = some ' ') (n : ℕ) : lastInt (p ++ formatInt n) = some (n : ℤ) := by
  obtain ⟨a, rfl⟩ := List.getLast?_eq_some_iff.1 h
  unfold lastInt formatInt
  rw [List.append_assoc, List.singleton_append,
    getLast_splitWords a Nat.toDigits_ne_nil fun c hc => isSpace_toDigits hc,
    Option.bind_some, pyInt_toDigits]

/-- A text that ends with the only quote in it. -/
def opens (p : Text) : Bool := p.getLast? == some '\x22' && !p.dropLast.contains '\x22'

/-- A text that begins with the only quote in it. -/
def closes (q : Text) : Bool := q.head? == some '\x22' && !q.tail.contains '\x22'

/-- The label of a line. -/
theorem quoted_label {p ip q d : Text} (hp : opens p = true) (hip : '\x22' ∉ ip) (hq : closes q = true)
    (hd : '\x22' ∉ d) :
    quoted (p ++ ip ++ q ++ d) = some ip := by
  unfold opens at hp
  unfold closes at hq
  rw [Bool.and_eq_true, beq_iff_eq, Bool.not_eq_true', List.contains_eq_mem, decide_eq_false_iff_not] at hp hq
  obtain ⟨a, rfl⟩ := List.getLast?_eq_some_iff.1 hp.1
  obtain ⟨c, rfl⟩ := List.head?_eq_some_iff.1 hq.1
  have ha : '\x22' ∉ a := by simpa using hp.2
  have hc : '\x22' ∉ c ++ d := by
    intro h
    rcases List.mem_append.1 h with h | h
    · exact hq.2 h
    · exact hd h
  -- the two quotes that the split finds first
  have hline : a ++ ['\x22'] ++ ip ++ '\x22' :: c ++ d = a ++ '\x22' :: (ip ++ '\x22' :: (c ++ d)) := by simp
  unfold quoted
  rw [hline, splitOn_between ha hip hc]

/-! ## Lines -/

/-- The lines are lines, and take the parser from `p` to `q`. -/
structure Parses (ls : List Text) (p q : Parsed) : Prop where
  lines : ∀ l ∈ ls, OneLine l
  parse : ls.foldlM parseLine p = some q

theorem Parses.nil (p : Parsed) : Parses [] p p := ⟨fun _ h => (nomatch h), rfl⟩

/-- Lines one after the other are parsed one after the other. -/
theorem Parses.append {l₁ l₂ : List Text} {p q r : Parsed} (h₁ : Parses l₁ p q) (h₂ : Parses l₂ q r) :
    Parses (l₁ ++ l₂) p r where
  lines l hl := (List.mem_append.1 hl).elim (h₁.lines l) (h₂.lines l)
  parse := by
    rw [List.foldlM_append, h₁.parse]
    exact h₂.parse

/-- One line more is parsed first. -/
theorem Parses.cons {l : Text} {ls : List Text} {p q r : Parsed} (hl : OneLine l) (h : parseLine p l = some q)
    (h' : Parses ls q r) : Parses (l :: ls) p r where
  lines := List.forall_mem_cons.2 ⟨hl, h'.lines⟩
  parse := by
    rw [List.foldlM_cons, h]
    exact h'.parse

/-- A comment, on one line. -/
def isComment (l : Text) : Bool := l.head? == some '#' && l.all fun c => !isLineBreak c

theorem oneLine_comment {l : Text} (h : isComment l = true) : OneLine l := by
  unfold isComment at h
  rw [Bool.and_eq_true, List.all_eq_true] at h
  intro c hc
  simpa using h.2 c hc

theorem oneLine_literal {s : String} {l : Text} (h : s = String.ofList l)
    (hl : (l.all fun c => !isLineBreak c) = true) :
    OneLine s.toList := by
  intro c hc
  simpa using List.all_eq_true.1 (literal h (fun l => l.all fun c => !isLineBreak c) hl) c hc

/-- A literal does not begin a line that begins with another one. -/
theorem not_begins {s t : String} {l m : Text} (hs : s = String.ofList l) (ht : t = String.ofList m)
    (h : apart l m = true) (rest : Text) : ¬ s.toList.isPrefixOf (t.toList ++ rest) = true := by
  rw [hs, ht, String.toList_ofList, String.toList_ofList, isPrefixOf_of_apart h]
  exact Bool.false_ne_true

/-- A comment adds nothing. -/
theorem parseLine_comment {l : Text} (h : isComment l = true) (p : Parsed) : parseLine p l = some p := by
  unfold isComment at h
  rw [Bool.and_eq_true, beq_iff_eq] at h
  obtain ⟨s, rfl⟩ := List.head?_eq_some_iff.1 h.1
  -- each prefix that the parser looks for begins with a letter
  have hno : ∀ q : Text, apart q ['#'] = true → ¬ q.isPrefixOf ('#' :: s) = true := by
    intro q hq
    rw [Bool.not_eq_true]
    exact isPrefixOf_of_apart hq s
  unfold parseLine
  rw [if_neg (hno _ (literal rfl (apart · ['#']) rfl)), if_neg (hno _ (literal rfl (apart · ['#']) rfl)),
    if_neg (hno _ (literal rfl (apart · ['#']) rfl)), if_neg (hno _ (literal rfl (apart · ['#']) rfl)),
    if_neg (hno _ (literal rfl (apart · ['#']) rfl)), if_neg (hno _ (literal rfl (apart · ['#']) rfl))]

/-- **A packet line** sets the counter of its label. -/
theorem parseLine_packets {ip : Text} (hip : PlainLabel ip) (n : ℕ) (p : Parsed) :
    parseLine p (packetsLine (ip, n)) = some { p with packets := p.packets.set ip n } := by
  have hlabel : quoted (packetsLine (ip, n)) = some ip := by
    have hd : '\x22' ∉ formatInt n := fun h => not_mem_toDigits (n := n) (by decide) (by decide) (by decide) h
    unfold packetsLine
    rw [hip.safe]
    exact quoted_label (literal rfl opens rfl) hip.quote (literal rfl closes rfl) hd
  have hvalue : lastInt (packetsLine (ip, n)) = some (n : ℤ) := by
    refine lastInt_append ?_ n
    have hspace := literal (s := "\x22\x7d ") rfl (fun l => l.getLast? == some ' ') rfl
    rw [List.getLast?_append, eq_of_beq hspace]
    rfl
  have hbegins : "fluxguard_meter_packets\x7bip=\x22".toList.isPrefixOf (packetsLine (ip, n)) = true := by
    unfold packetsLine
    rw [List.append_assoc, List.append_assoc]
    exact isPrefixOf_append _ _
  unfold parseLine
  rw [if_pos hbegins, hlabel, hvalue]
  rfl

/-- **A line of the blocked set** adds its label. -/
theorem parseLine_blocked {ip : Text} (hip : PlainLabel ip) (p : Parsed) :
    parseLine p (blockedLine ip) = some { p with blockedSet := insert ip p.blockedSet } := by
  have hlabel : quoted (blockedLine ip) = some ip := by
    have hline : blockedLine ip = "fluxguard_blocked_ip\x7bip=\x22".toList ++ ip ++ "\x22\x7d 1".toList ++ [] := by
      unfold blockedLine
      rw [hip.safe, List.append_nil]
    rw [hline]
    exact quoted_label (literal rfl opens rfl) hip.quote (literal rfl closes rfl) List.not_mem_nil
  unfold parseLine
  rw [hlabel]
  unfold blockedLine
  rw [List.append_assoc]
  refine Eq.trans (if_neg (not_begins rfl rfl rfl _)) ?_
  refine Eq.trans (if_neg (not_begins rfl rfl rfl _)) ?_
  refine Eq.trans (if_neg (not_begins rfl rfl rfl _)) ?_
  refine Eq.trans (if_neg (not_begins rfl rfl rfl _)) ?_
  refine Eq.trans (if_neg (not_begins rfl rfl rfl _)) ?_
  exact if_pos (isPrefixOf_append _ _)

/-- A line of packets is one line. -/
theorem oneLine_packetsLine {ip : Text} (hip : PlainLabel ip) (n : ℕ) : OneLine (packetsLine (ip, n)) := by
  unfold packetsLine
  rw [hip.safe]
  exact (((oneLine_literal rfl rfl).append hip.line).append (oneLine_literal rfl rfl)).append (oneLine_toDigits n)

/-- So is a line of a block. -/
theorem oneLine_blockedLine {ip : Text} (hip : PlainLabel ip) : OneLine (blockedLine ip) := by
  unfold blockedLine
  rw [hip.safe]
  exact ((oneLine_literal rfl rfl).append hip.line).append (oneLine_literal rfl rfl)

/-! ## The four values -/

theorem spaced {s : String} {l : Text} (h : s = String.ofList l) (hl : (l.getLast? == some ' ') = true) :
    s.toList.getLast? = some ' ' :=
  eq_of_beq (literal h (fun l => l.getLast? == some ' ') hl)

/-- So is a line of a number. -/
theorem oneLine_value {s : String} {l : Text} (h : s = String.ofList l)
    (hl : (l.all fun c => !isLineBreak c) = true) (n : ℕ) :
    OneLine (s.toList ++ formatInt n) :=
  (oneLine_literal h hl).append (oneLine_toDigits n)

theorem parseLine_blockedIps (n : ℕ) (p : Parsed) :
    parseLine p ("fluxguard_blocked_ips ".toList ++ formatInt n) = some { p with blockedCount := n } := by
  unfold parseLine
  rw [lastInt_append (spaced rfl rfl) n]
  refine Eq.trans (if_neg (not_begins rfl rfl rfl _)) ?_
  exact if_pos (isPrefixOf_append _ _)

theorem parseLine_blockEvents (n : ℕ) (p : Parsed) :
    parseLine p ("fluxguard_block_events_total ".toList ++ formatInt n) = some { p with blockEvents := n } := by
  unfold parseLine
  rw [lastInt_append (spaced rfl rfl) n]
  refine Eq.trans (if_neg (not_begins rfl rfl rfl _)) ?_
  refine Eq.trans (if_neg (not_begins rfl rfl rfl _)) ?_
  exact if_pos (isPrefixOf_append _ _)

theorem parseLine_unblockEvents (n : ℕ) (p : Parsed) :
    parseLine p ("fluxguard_unblock_events_total ".toList ++ formatInt n) = some { p with unblockEvents := n } := by
  unfold parseLine
  rw [lastInt_append (spaced rfl rfl) n]
  refine Eq.trans (if_neg (not_begins rfl rfl rfl _)) ?_
  refine Eq.trans (if_neg (not_begins rfl rfl rfl _)) ?_
  refine Eq.trans (if_neg (not_begins rfl rfl rfl _)) ?_
  exact if_pos (isPrefixOf_append _ _)

theorem parseLine_globalPpsExceeded (n : ℕ) (p : Parsed) :
    parseLine p ("fluxguard_global_pps_exceeded_total ".toList ++ formatInt n) = some { p with shieldsUp := n } := by
  unfold parseLine
  rw [lastInt_append (spaced rfl rfl) n]
  refine Eq.trans (if_neg (not_begins rfl rfl rfl _)) ?_
  refine Eq.trans (if_neg (not_begins rfl rfl rfl _)) ?_
  refine Eq.trans (if_neg (not_begins rfl rfl rfl _)) ?_
  refine Eq.trans (if_neg (not_begins rfl rfl rfl _)) ?_
  exact if_pos (isPrefixOf_append _ _)

/-! ## The whole text -/

/-- Two comments before a line. -/
theorem Parses.comments {c c' : Text} {ls : List Text} {p q : Parsed} (hc : isComment c = true)
    (hc' : isComment c' = true)
    (h : Parses ls p q) : Parses (c :: c' :: ls) p q :=
  Parses.cons (oneLine_comment hc) (parseLine_comment hc p)
    (Parses.cons (oneLine_comment hc') (parseLine_comment hc' p) h)

/-- The lines of packets are read into the dict. -/
theorem parses_packets {l : List (Text × ℕ)} (h : ∀ q ∈ l, PlainLabel q.1) (p : Parsed) :
    Parses (l.map packetsLine) p
      { p with packets := (l.map fun q => (q.1, (q.2 : ℤ))).foldl (fun d q => d.set q.1 q.2) p.packets } := by
  induction l generalizing p with
  | nil => exact Parses.nil p
  | cons q l ih =>
    have hq := h q List.mem_cons_self
    exact Parses.cons (oneLine_packetsLine hq q.2) (parseLine_packets hq q.2 p)
      (ih (fun q' hq' => h q' (List.mem_cons_of_mem _ hq')) _)

/-- The lines of blocks are read into the set. -/
theorem parses_blocked {l : List Text} (h : ∀ ip ∈ l, PlainLabel ip) (p : Parsed) :
    Parses (l.map blockedLine) p { p with blockedSet := p.blockedSet ∪ l.toFinset } := by
  induction l generalizing p with
  | nil =>
    rw [List.toFinset_nil, Finset.union_empty]
    exact Parses.nil p
  | cons ip l ih =>
    have htail := ih (fun ip' h' => h ip' (List.mem_cons_of_mem _ h')) { p with blockedSet := insert ip p.blockedSet }
    rw [List.toFinset_cons, Finset.union_insert, ← Finset.insert_union]
    have hip := h ip List.mem_cons_self
    exact Parses.cons (oneLine_blockedLine hip) (parseLine_blocked hip p) htail

/-- So is their section, with its comments. -/
theorem parses_section {s : List Text} (h : ∀ ip ∈ s, PlainLabel ip) (p : Parsed) :
    Parses
      (if s = [] then []
      else
        ["# HELP fluxguard_blocked_ip Per-IP block status (1 = currently blocked, supports IPv4/IPv6).".toList,
          "# TYPE fluxguard_blocked_ip gauge".toList] ++
        (sortedSet s).map blockedLine)
      p { p with blockedSet := p.blockedSet ∪ s.toFinset } := by
  split
  · rename_i hs
    rw [hs, List.toFinset_nil, Finset.union_empty]
    exact Parses.nil p
  -- the order of the lines does not matter to a set
  · have hperm : (sortedSet s).Perm s := List.mergeSort_perm s _
    rw [← List.toFinset_eq_of_perm _ _ hperm]
    refine Parses.comments (literal rfl isComment rfl) (literal rfl isComment rfl) ?_
    exact parses_blocked (fun ip hip => h ip (hperm.mem_iff.1 hip)) p

/-- The count of blocks is read. -/
theorem parses_count (n : ℕ) (p : Parsed) :
    Parses
      ["# HELP fluxguard_blocked_ips Number of IPs currently blocked by the brain.".toList,
        "# TYPE fluxguard_blocked_ips gauge".toList,
        "fluxguard_blocked_ips ".toList ++ formatInt n]
      p { p with blockedCount := n } :=
  Parses.comments (literal rfl isComment rfl) (literal rfl isComment rfl)
    (Parses.cons (oneLine_value rfl rfl n) (parseLine_blockedIps n p) (Parses.nil _))

/-- So are the three counters. -/
theorem parses_events (b u g : ℕ) (p : Parsed) :
    Parses
      ["# HELP fluxguard_block_events_total Cumulative block events.".toList,
        "# TYPE fluxguard_block_events_total counter".toList,
        "fluxguard_block_events_total ".toList ++ formatInt b,
        "# HELP fluxguard_unblock_events_total Cumulative unblock events.".toList,
        "# TYPE fluxguard_unblock_events_total counter".toList,
        "fluxguard_unblock_events_total ".toList ++ formatInt u,
        "# HELP fluxguard_global_pps_exceeded_total Global Shields-Up events triggered.".toList,
        "# TYPE fluxguard_global_pps_exceeded_total counter".toList,
        "fluxguard_global_pps_exceeded_total ".toList ++ formatInt g]
      p { p with blockEvents := b, unblockEvents := u, shieldsUp := g } := by
  refine Parses.comments (literal rfl isComment rfl) (literal rfl isComment rfl)
    (Parses.cons (oneLine_value rfl rfl b) (parseLine_blockEvents b _) ?_)
  refine Parses.comments (literal rfl isComment rfl) (literal rfl isComment rfl)
    (Parses.cons (oneLine_value rfl rfl u) (parseLine_unblockEvents u _) ?_)
  refine Parses.comments (literal rfl isComment rfl) (literal rfl isComment rfl)
    (Parses.cons (oneLine_value rfl rfl g) (parseLine_globalPpsExceeded g _) ?_)
  exact Parses.nil _

/-- What the dashboard reads. -/
def MetricsState.parsed (m : MetricsState) : Parsed :=
  { packets := Dict.ofItems ((sortedItems m.packetsByIp).map fun q => (q.1, (q.2 : ℤ)))
    blockedSet := m.blockedIpsSet.toFinset
    blockedCount := m.blockedIps
    blockEvents := m.blockEvents
    unblockEvents := m.unblockEvents
    shieldsUp := m.globalPpsExceeded }

section Text

variable {m : MetricsState} (hp : ∀ ip ∈ m.packetsByIp, PlainLabel ip) (hb : ∀ ip ∈ m.blockedIpsSet, PlainLabel ip)

include hp in

/-- The labels stay plain when they are sorted. -/
theorem plain_sortedItems : ∀ q ∈ sortedItems m.packetsByIp, PlainLabel q.1 := by
  intro q hq
  have hmem : q ∈ m.packetsByIp.items := (List.mergeSort_perm _ _).mem_iff.1 hq
  exact hp q.1 (Dict.mem_def.2 (List.mem_map_of_mem hmem))

include hp hb in

/-- All the lines together are read as the state. -/
theorem parses_lines : Parses m.lines ⟨Dict.empty, ∅, 0, 0, 0, 0⟩ m.parsed := by
  have hhead :
    Parses ["# HELP fluxguard_meter_packets Current packet counter per source IP (IPv4 or IPv6) from meter_maps.".toList,
      "# TYPE fluxguard_meter_packets gauge".toList] ⟨Dict.empty, ∅, 0, 0, 0, 0⟩ ⟨Dict.empty, ∅, 0, 0, 0, 0⟩ :=
    Parses.comments (literal rfl isComment rfl) (literal rfl isComment rfl) (Parses.nil _)
  have hpackets := hhead.append (parses_packets (plain_sortedItems hp) _)
  have hsection := (hpackets.append (parses_count m.blockedIps _)).append (parses_section hb _)
  have hlines := hsection.append (parses_events m.blockEvents m.unblockEvents m.globalPpsExceeded _)
  rw [Finset.empty_union] at hlines
  exact hlines

include hp hb in
/-- **The dashboard reads what the exporter wrote.** -/
theorem parseMetrics_render : parseMetrics m.renderPrometheusText = some m.parsed := by
  have h := parses_lines hp hb
  unfold parseMetrics MetricsState.renderPrometheusText
  rw [splitLines_joinLines h.lines]
  exact h.parse

/-- The packet counters as the dashboard holds them. -/
theorem get?_parsed (m : MetricsState) (ip : Text) :
    m.parsed.packets.get? ip = (m.packetsByIp.get? ip).map Int.ofNat := by
  have hperm : (sortedItems m.packetsByIp).Perm m.packetsByIp.items := List.mergeSort_perm _ _
  have hkeys : ((sortedItems m.packetsByIp).map fun q => (q.1, (q.2 : ℤ))).map Prod.fst =
      (sortedItems m.packetsByIp).map Prod.fst := by
    rw [List.map_map]
    rfl
  -- sorting keeps the labels apart, so no counter overwrites another
  have hitems : m.parsed.packets.items = (sortedItems m.packetsByIp).map fun q => (q.1, (q.2 : ℤ)) := by
    refine Dict.items_ofItems ?_
    rw [hkeys, (hperm.map Prod.fst).nodup_iff]
    exact m.packetsByIp.nodup
  refine Option.ext fun v => ?_
  rw [← Dict.mem_items_iff, hitems, List.mem_map, Option.map_eq_some_iff]
  constructor
  · rintro ⟨q, hq, he⟩
    cases he
    exact ⟨q.2, Dict.mem_items_iff.1 (hperm.mem_iff.1 hq), rfl⟩
  · rintro ⟨n, hn, rfl⟩
    exact ⟨(ip, n), hperm.mem_iff.2 (Dict.mem_items_iff.2 hn), rfl⟩

end Text

/-- **The metrics text round trip.** -/
theorem metrics_roundtrip (m : MetricsState) (hp : ∀ ip ∈ m.packetsByIp, ∃ s : Source, s.text = ip)
    (hb : ∀ ip ∈ m.blockedIpsSet, ∃ s : Source, s.text = ip) :
    ∃ p, parseMetrics m.renderPrometheusText = some p ∧
      (∀ ip, p.packets.get? ip = (m.packetsByIp.get? ip).map Int.ofNat) ∧
      p.blockedSet = m.blockedIpsSet.toFinset ∧ p.blockedCount = m.blockedIps ∧ p.blockEvents = m.blockEvents ∧
      p.unblockEvents = m.unblockEvents ∧ p.shieldsUp = m.globalPpsExceeded := by
  have hpackets : ∀ ip ∈ m.packetsByIp, PlainLabel ip := fun ip hip => plain_of_text (hp ip hip)
  have hblocked : ∀ ip ∈ m.blockedIpsSet, PlainLabel ip := fun ip hip => plain_of_text (hb ip hip)
  exact ⟨m.parsed, parseMetrics_render hpackets hblocked, get?_parsed m, rfl, rfl, rfl, rfl, rfl⟩

/-- Two counters, one of them of an IPv6 address, and one blocked address. -/
theorem metrics_roundtrip_two :
    ∃ p, parseMetrics (MetricsState.renderPrometheusText ⟨(Dict.empty.set (Source.text (.v4 0x0100007F)) 7).set
        (Source.text (.v6 0)) 12, [Source.text (.v6 0)], 1, 1, 0, 3⟩) = some p ∧
      p.packets.get? (Source.text (.v6 0)) = some 12 ∧ p.blockedSet = {Source.text (.v6 0)} ∧ p.shieldsUp = 3 := by
  obtain ⟨p, hparse, hpackets, hset, -, -, -, hshields⟩ := metrics_roundtrip
    ⟨(Dict.empty.set (Source.text (.v4 0x0100007F)) 7).set (Source.text (.v6 0)) 12, [Source.text (.v6 0)], 1, 1, 0, 3⟩
    (by
      intro ip hip
      rcases Dict.mem_set.1 hip with rfl | hip
      · exact ⟨_, rfl⟩
      · rcases Dict.mem_set.1 hip with rfl | hip
        · exact ⟨_, rfl⟩
        · exact (nomatch hip))
    (by
      intro ip hip
      exact ⟨_, (List.mem_singleton.1 hip).symm⟩)
  refine ⟨p, hparse, ?_, hset, hshields⟩
  rw [hpackets, Dict.get?_set_self]
  rfl

end FluxGuard
