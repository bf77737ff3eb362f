import MyTestserver.HttpRequest

namespace MyTestserver

open WebSocketHandler Search

section Lines

-- Without a carriage return and without a line feed.
def IsLine (line : Bytes) : Prop := ∀ byte ∈ line, byte ≠ 13 ∧ byte ≠ 10

variable {line pat rest : Bytes} {lines : List Bytes}

theorem IsLine.not_mem (h : IsLine line) : 13 ∉ line ∧ 10 ∉ line :=
  ⟨fun hmem => (h 13 hmem).1 rfl, fun hmem => (h 10 hmem).2 rfl⟩

theorem IsLine.append {line' : Bytes} (h : IsLine line) (h' : IsLine line') :
    IsLine (line ++ line') := fun byte hbyte =>
  (List.mem_append.mp hbyte).elim (h byte) (h' byte)

-- Bytes of a class that has neither of the two.
theorem isLine_of_class {ok : UInt8 → Bool} (hcr : ok 13 = false) (hlf : ok 10 = false)
    (h : ∀ byte ∈ line, ok byte = true) : IsLine line := by
  intro byte hbyte
  have hok := h byte hbyte
  constructor
  · rintro rfl
    exact absurd hok (by simp [hcr])
  · rintro rfl
    exact absurd hok (by simp [hlf])

theorem isLine_of_all (h : line.all (fun byte => byte != 13 && byte != 10) = true) :
    IsLine line := isLine_of_class (by decide) (by decide) (List.all_eq_true.mp h)

-- A text in one line is found in a line or behind it, not across its end.

theorem find_line_some {i pos : ℕ} (hpat : IsLine pat) (h : find line pat pos = some i) :
    find (line ++ crlf ++ rest) pat pos = some i := by
  rw [List.append_assoc]
  exact find_cut_some hpat.not_mem.1 h

theorem find_line_none (hpat : IsLine pat) (hne : pat ≠ []) (h : find line pat 0 = none) :
    find (line ++ crlf ++ rest) pat 0 = (find rest pat 0).map (line.length + 2 + ·) := by
  have hcr : find (line ++ 13 :: (10 :: rest)) pat 0 =
      (find (10 :: rest) pat 0).map (line.length + 1 + ·) :=
    find_cut_none hpat.not_mem.1 h (Nat.zero_le _)
  have hempty : find ([] : Bytes) pat 0 = none := by
    refine (find_eq_none_iff _ _ _).mpr fun i _ _ hocc => hne ?_
    rw [List.drop_nil] at hocc
    exact List.prefix_nil.mp hocc
  have hlf : find ([] ++ 10 :: rest) pat 0 = (find rest pat 0).map (0 + 1 + ·) :=
    find_cut_none hpat.not_mem.2 hempty (Nat.zero_le _)
  rw [List.nil_append] at hlf
  have happend : line ++ crlf ++ rest = line ++ 13 :: (10 :: rest) := by
    rw [List.append_assoc]
    rfl
  rw [happend, hcr, hlf, Option.map_map]
  refine congrArg (fun f => (find rest pat 0).map f) (funext fun i => ?_)
  simp only [Function.comp_apply]
  omega

theorem infix_lines_iff (hpat : IsLine pat) (hne : pat ≠ []) :
    pat <:+: lines.flatMap (· ++ crlf) ++ rest ↔
      (∃ line ∈ lines, pat <:+: line) ∨ pat <:+: rest := by
  induction lines with
  | nil => simp
  | cons line lines ih =>
      rw [List.flatMap_cons, List.append_assoc, List.exists_mem_cons_iff, or_assoc, ← ih,
        ← find_ne_none_iff, ← find_ne_none_iff, ← find_ne_none_iff]
      cases hfind : find line pat 0 with
      | some i =>
          rw [find_line_some hpat hfind]
          simp
      | none =>
          rw [find_line_none hpat hne hfind]
          simp

-- The end of a line is the next CRLF.
theorem find_crlf (h : IsLine line) {pos : ℕ} (hpos : pos ≤ line.length) :
    find (line ++ crlf ++ rest) crlf pos = some line.length := by
  rw [List.append_assoc]
  refine (find_eq_some_iff _ _ _ _).mpr ⟨hpos, by simp, ?_, fun j _ hlt hocc => ?_⟩
  · rw [List.drop_left]
    exact List.prefix_append _ _
  · rw [List.drop_append_of_le_length (by omega), List.drop_eq_getElem_cons hlt] at hocc
    have hbyte := (List.cons_prefix_cons.mp hocc).1
    exact (h _ (List.getElem_mem hlt)).1 hbyte.symm

end Lines

section Key

-- The rest of the first line that has the name of the key in it, spelled so; behind the
-- lines, what the code takes there.
def keyIn : List Bytes → Bytes → Bytes
  | [], rest => extractSecWebSocketKey rest
  | line :: lines, rest =>
      match find line keyHeader 0 with
      | some i => line.drop (i + 19)
      | none => keyIn lines rest

variable {line rest : Bytes} {lines : List Bytes}

theorem isLine_keyHeader : IsLine keyHeader := isLine_of_all (by decide)

theorem extract_line_some {i : ℕ} (hline : IsLine line) (h : find line keyHeader 0 = some i) :
    extractSecWebSocketKey (line ++ crlf ++ rest) = line.drop (i + 19) := by
  have hlength : keyHeader.length = 19 := by decide
  obtain ⟨_, _, hocc, _⟩ := (find_eq_some_iff _ _ _ _).mp h
  have hpos : i + 19 ≤ line.length := by
    have hle := hocc.length_le
    rw [hlength, List.length_drop] at hle
    omega
  unfold extractSecWebSocketKey
  rw [find_line_some isLine_keyHeader h]
  dsimp only
  rw [find_crlf hline hpos]
  dsimp only [Option.or]
  rw [List.append_assoc, List.drop_append_of_le_length hpos,
    List.take_append_of_le_length (by simp), List.take_of_length_le (by simp)]

-- A line without the name of the key is passed over.
theorem extract_line_none (h : find line keyHeader 0 = none) :
    extractSecWebSocketKey (line ++ crlf ++ rest) = extractSecWebSocketKey rest := by
  have hlen : (line ++ crlf).length = line.length + 2 := by simp [crlf]
  have hshift := fun pat pos => find_append_left (line ++ crlf) rest pat pos
  rw [hlen] at hshift
  have hdrop : ∀ n, (line ++ crlf ++ rest).drop (line.length + 2 + n) = rest.drop n := by
    intro n
    rw [← hlen, ← List.drop_drop, List.drop_left]
  unfold extractSecWebSocketKey
  rw [find_line_none isLine_keyHeader (by decide) h]
  cases find rest keyHeader 0 with
  | none => rfl
  | some pos =>
      rw [Option.map_some]
      dsimp only
      rw [Nat.add_assoc (line.length + 2) pos 19, hshift, hshift, hdrop]
      cases find rest crlf (pos + 19) with
      | some stop => simp [Nat.add_sub_add_left]
      | none =>
          cases find rest [10] (pos + 19) with
          | some stop => simp [Nat.add_sub_add_left]
          | none => rfl

theorem extract_lines (hlines : ∀ line ∈ lines, IsLine line) :
    extractSecWebSocketKey (lines.flatMap (· ++ crlf) ++ rest) = keyIn lines rest := by
  induction lines with
  | nil => rfl
  | cons line lines ih =>
      have hrest := ih fun line hline => hlines line (List.mem_cons_of_mem _ hline)
      rw [List.flatMap_cons, List.append_assoc, keyIn]
      cases hfind : find line keyHeader 0 with
      | some i => rw [extract_line_some (hlines line (by simp)) hfind]
      | none => rw [extract_line_none hfind, hrest]

-- Where the first line with the name begins with it, the value is what follows.
theorem keyIn_of_first {before after : List Bytes} {value : Bytes}
    (hbefore : ∀ line ∈ before, ¬keyHeader <:+: line) :
    keyIn (before ++ (keyHeader ++ value) :: after) rest = value := by
  induction before with
  | nil =>
      have hfind : find (keyHeader ++ value) keyHeader 0 = some 0 :=
        (find_eq_some_iff _ _ _ _).mpr ⟨Nat.le_refl 0, Nat.zero_le _, List.prefix_append _ _,
          fun j _ hlt => absurd hlt (Nat.not_lt_zero j)⟩
      have hlength : keyHeader.length = 0 + 19 := by decide
      simp only [List.nil_append, keyIn, hfind]
      rw [← hlength, List.drop_left]
  | cons line before ih =>
      have hfind : find line keyHeader 0 = none := by
        have hnot := hbefore line (by simp)
        rw [← find_ne_none_iff] at hnot
        exact not_not.mp hnot
      rw [List.cons_append, keyIn, hfind]
      exact ih fun line hline => hbefore line (List.mem_cons_of_mem _ hline)

end Key

namespace HttpRequest

section Upgrade

variable (r : HttpRequest)

theorem isLine_header (h : HeaderLine) : IsLine h.line := by
  have hname : IsLine h.name := isLine_of_class (by decide) (by decide) h.name_token.2
  have hblank : IsLine (h.before ++ h.after) := isLine_of_class (by decide) (by decide) h.blank
  have hbefore : IsLine h.before := fun byte hbyte => hblank byte (List.mem_append_left _ hbyte)
  have hafter : IsLine h.after := fun byte hbyte => hblank byte (List.mem_append_right _ hbyte)
  have hcolon : IsLine [58] := isLine_of_all (by decide)
  have hrest : IsLine (58 :: (h.before ++ (h.value ++ h.after))) :=
    hcolon.append (hbefore.append (IsLine.append h.value_line hafter))
  exact hname.append hrest

theorem isLine_requestLine : IsLine r.requestLine := by
  have hget : IsLine (ascii "GET ") := isLine_of_all (by decide)
  have hblank : IsLine [32] := isLine_of_all (by decide)
  have htarget : IsLine r.target := fun byte hbyte =>
    ⟨(r.target_line byte hbyte).1, (r.target_line byte hbyte).2.1⟩
  have hversion : IsLine r.version := fun byte hbyte =>
    ⟨(r.version_line byte hbyte).1, (r.version_line byte hbyte).2.1⟩
  exact hget.append (htarget.append (hblank.append hversion))

theorem isLine_lines : ∀ line ∈ r.lines, IsLine line := by
  intro line hline
  rcases List.mem_cons.mp hline with rfl | hline
  · exact isLine_requestLine r
  rcases List.mem_append.mp hline with hheader | hempty
  · obtain ⟨h, _, rfl⟩ := List.mem_map.mp hheader
    exact isLine_header h
  · rw [List.mem_singleton.mp hempty]
    intro byte hbyte
    exact absurd hbyte List.not_mem_nil

theorem infix_render_iff {pat : Bytes} (hpat : IsLine pat) (hne : pat ≠ []) :
    pat <:+: r.render ↔ (∃ line ∈ r.lines, pat <:+: line) ∨ pat <:+: r.behind :=
  infix_lines_iff hpat hne

-- The header has the name and begins its value as the code spells them.
def Spells (name : String) (h : HeaderLine) : Prop := h.name = ascii name ∧ h.before = ascii " "

theorem Spells.line_eq {name : String} {h : HeaderLine} (hspells : Spells name h) :
    h.line = ascii name ++ ascii ": " ++ (h.value ++ h.after) := by
  have hcolon : ascii ": " = 58 :: ascii " " := by decide
  rw [HeaderLine.line, hspells.1, hspells.2, hcolon, List.append_assoc, List.cons_append]

theorem Spells.mem_lines {name : String} {h : HeaderLine} (hmem : h ∈ r.headers)
    (hspells : Spells name h) :
    ascii name ++ ascii ": " ++ (h.value ++ h.after) ∈ r.lines := by
  rw [← hspells.line_eq]
  exact List.mem_cons_of_mem _ (List.mem_append_left _ (List.mem_map_of_mem hmem))

theorem isWebSocketUpgrade_iff (request : Bytes) :
    isWebSocketUpgrade request = true ↔
      ∀ pat ∈ [upgradeHeader, connectionHeader, keyHeader], pat <:+: request := by
  simp only [List.forall_mem_cons, ← find_ne_none_iff, isWebSocketUpgrade]
  split_ifs <;> simp_all

theorem isWebSocketUpgrade_render :
    isWebSocketUpgrade r.render = true ↔
      ∀ pat ∈ [upgradeHeader, connectionHeader, keyHeader],
        (∃ line ∈ r.lines, pat <:+: line) ∨ pat <:+: r.behind := by
  have hupgrade : IsLine upgradeHeader := isLine_of_all (by decide)
  have hconnection : IsLine connectionHeader := isLine_of_all (by decide)
  rw [isWebSocketUpgrade_iff]
  simp only [List.forall_mem_cons, infix_render_iff r hupgrade (by decide),
    infix_render_iff r hconnection (by decide), infix_render_iff r isLine_keyHeader (by decide)]
  simp

theorem isUpgrade_spelled
    (hupgrade : ∃ h ∈ r.headers, Spells "Upgrade" h ∧ h.value = ascii "websocket")
    (hconnection : ∃ h ∈ r.headers, Spells "Connection" h ∧ h.value = ascii "Upgrade")
    (hkey : ∃ h ∈ r.headers, Spells "Sec-WebSocket-Key" h) : r.IsUpgrade := by
  obtain ⟨u, hu, hus, huv⟩ := hupgrade
  obtain ⟨c, hc, hcs, hcv⟩ := hconnection
  obtain ⟨k, hk, hks⟩ := hkey
  have htoken : ascii "Upgrade" ∈ c.tokens := by
    rw [HeaderLine.tokens, hcv]
    decide
  exact ⟨⟨u, hu, congrArg _ hus.1, congrArg _ huv⟩,
    ⟨c, hc, congrArg _ hcs.1, ascii "Upgrade", htoken, rfl⟩, k, hk, congrArg _ hks.1⟩

theorem recognised_spelled
    (hupgrade : ∃ h ∈ r.headers, Spells "Upgrade" h ∧ h.value = ascii "websocket")
    (hconnection : ∃ h ∈ r.headers, Spells "Connection" h ∧ h.value = ascii "Upgrade")
    (hkey : ∃ h ∈ r.headers, Spells "Sec-WebSocket-Key" h) :
    isWebSocketUpgrade r.render = true := by
  obtain ⟨u, hu, hus, huv⟩ := hupgrade
  obtain ⟨c, hc, hcs, hcv⟩ := hconnection
  obtain ⟨k, hk, hks⟩ := hkey
  have hupgradeHeader : upgradeHeader = ascii "Upgrade" ++ ascii ": " ++ ascii "websocket" := by
    decide
  have hconnectionHeader : connectionHeader = ascii "Connection" ++ ascii ": " ++ ascii "Upgrade" :=
    by decide
  have hkeyHeader : keyHeader = ascii "Sec-WebSocket-Key" ++ ascii ": " := by decide
  rw [isWebSocketUpgrade_render]
  intro pat hpat
  left
  simp only [List.mem_cons, List.not_mem_nil, or_false] at hpat
  rcases hpat with rfl | rfl | rfl
  · refine ⟨_, hus.mem_lines r hu, ?_⟩
    rw [hupgradeHeader, huv, ← List.append_assoc]
    exact (List.prefix_append _ _).isInfix
  · refine ⟨_, hcs.mem_lines r hc, ?_⟩
    rw [hconnectionHeader, hcv, ← List.append_assoc]
    exact (List.prefix_append _ _).isInfix
  · refine ⟨_, hks.mem_lines r hk, ?_⟩
    rw [hkeyHeader]
    exact (List.prefix_append _ _).isInfix

theorem extract_render : extractSecWebSocketKey r.render = keyIn r.lines r.behind :=
  extract_lines (isLine_lines r)

theorem extract_spelled {before after : List HeaderLine} {h : HeaderLine}
    (hheaders : r.headers = before ++ h :: after)
    (hfirst : ∀ line ∈ r.requestLine :: before.map HeaderLine.line, ¬keyHeader <:+: line)
    (hspells : Spells "Sec-WebSocket-Key" h) (hafter : h.after = []) :
    extractSecWebSocketKey r.render = h.value := by
  have hkeyHeader : keyHeader = ascii "Sec-WebSocket-Key" ++ ascii ": " := by decide
  have hlines : r.lines = (r.requestLine :: before.map HeaderLine.line) ++
      (keyHeader ++ h.value) :: (after.map HeaderLine.line ++ [[]]) := by
    rw [lines, hheaders, List.map_append, List.map_cons, hspells.line_eq, hafter, List.append_nil,
      hkeyHeader]
    simp
  rw [extract_render, hlines]
  exact keyIn_of_first hfirst

-- What the code goes by are the three texts, wherever they stand.
theorem upgrade_by_spelling :
    (isWebSocketUpgrade r.render = true ↔
        ∀ pat ∈ [upgradeHeader, connectionHeader, keyHeader],
          (∃ line ∈ r.lines, pat <:+: line) ∨ pat <:+: r.behind) ∧
      ((∃ h ∈ r.headers, Spells "Upgrade" h ∧ h.value = ascii "websocket") →
        (∃ h ∈ r.headers, Spells "Connection" h ∧ h.value = ascii "Upgrade") →
        (∃ h ∈ r.headers, Spells "Sec-WebSocket-Key" h) →
        r.IsUpgrade ∧ isWebSocketUpgrade r.render = true) ∧
      extractSecWebSocketKey r.render = keyIn r.lines r.behind ∧
      ∀ before h after, r.headers = before ++ h :: after →
        (∀ line ∈ r.requestLine :: before.map HeaderLine.line, ¬keyHeader <:+: line) →
        Spells "Sec-WebSocket-Key" h → h.after = [] →
        extractSecWebSocketKey r.render = h.value := by
  refine ⟨isWebSocketUpgrade_render r, fun hupgrade hconnection hkey => ?_, extract_render r, ?_⟩
  · exact ⟨isUpgrade_spelled r hupgrade hconnection hkey,
      recognised_spelled r hupgrade hconnection hkey⟩
  · intro before h after hheaders hfirst hspells hafter
    exact extract_spelled r hheaders hfirst hspells hafter

theorem word_of_all {bytes : Bytes}
    (h : bytes.all (fun byte => byte != 13 && byte != 10 && byte != 32) = true) :
    ∀ byte ∈ bytes, byte ≠ 13 ∧ byte ≠ 10 ∧ byte ≠ 32 := by
  simpa only [List.all_eq_true, Bool.and_eq_true, bne_iff_ne, and_assoc] using h

def sampleHeader (name value : String)
    (hname : ascii name ≠ [] ∧ (ascii name).all isTokenByte = true)
    (hvalue : (ascii value).all (fun byte => byte != 13 && byte != 10) = true ∧
      trim (ascii value) = ascii value) : HeaderLine where
  name := ascii name
  before := ascii " "
  value := ascii value
  after := []
  name_token := ⟨hname.1, List.all_eq_true.mp hname.2⟩
  blank := List.all_eq_true.mp (by decide)
  value_line := isLine_of_all hvalue.1
  value_trim := hvalue.2

-- A browser that also asks for the connection to be kept.
def keptAlive : HttpRequest where
  target := ascii "/"
  version := ascii "HTTP/1.1"
  headers :=
    [sampleHeader "Upgrade" "websocket" (by decide) (by decide),
      sampleHeader "Connection" "keep-alive, Upgrade" (by decide) (by decide),
      sampleHeader "Sec-WebSocket-Key" "AQ==" (by decide) (by decide)]
  behind := []
  target_line := word_of_all (by decide)
  version_line := word_of_all (by decide)

theorem keptAlive_not_recognised :
    ¬∀ r : HttpRequest,
      (isWebSocketUpgrade r.render = true ↔ r.IsUpgrade) ∧
        (isWebSocketUpgrade r.render = true →
          ∃ h ∈ r.headers, IsKey h ∧ extractSecWebSocketKey r.render = h.value) := by
  intro hclaim
  have hupgrade : keptAlive.IsUpgrade := by decide
  have hnot : ¬isWebSocketUpgrade keptAlive.render = true := by decide
  exact hnot ((hclaim keptAlive).1.mpr hupgrade)

end Upgrade

end HttpRequest

end MyTestserver
