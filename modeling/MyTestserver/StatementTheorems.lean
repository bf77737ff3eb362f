import Mathlib.Data.List.TakeWhile
import MyTestserver.DbConnection
import MyTestserver.Sql

namespace MyTestserver

open Transducer

section Escape

theorem cString_of_not_mem {bytes : Bytes} (h : 0 ∉ bytes) : cString bytes = bytes := by
  refine List.takeWhile_eq_self_iff.mpr fun byte hbyte => ?_
  simpa using fun h0 : byte = 0 => h (h0 ▸ hbyte)

theorem cString_eq_self_iff {bytes : Bytes} : cString bytes = bytes ↔ 0 ∉ bytes := by
  refine ⟨fun h hmem => ?_, cString_of_not_mem⟩
  have hbyte := List.takeWhile_eq_self_iff.mp h 0 hmem
  simp at hbyte

theorem cString_append_nul {bytes : Bytes} (h : 0 ∉ bytes) (rest : Bytes) :
    cString (bytes ++ 0 :: rest) = bytes := by
  have hself := cString_of_not_mem h
  unfold cString at hself ⊢
  rw [List.takeWhile_append, if_pos (by rw [hself])]
  simp

-- An escape sequence for one byte, two bytes long, or the byte itself.
theorem escapeByte_cases (byte : UInt8) :
    (∃ sign, escapeByte byte = [Sql.backslash, sign] ∧ sign ≠ 0 ∧ Sql.unescape sign = [byte]) ∨
      (escapeByte byte = [byte] ∧ byte ≠ 0 ∧ byte ≠ Sql.backslash ∧ byte ≠ Sql.quote) := by
  by_cases hplain : byte ∈ [0, 10, 13, 92, 39, 34, 26]
  · left
    simp only [List.mem_cons, List.not_mem_nil, or_false] at hplain
    rcases hplain with rfl | rfl | rfl | rfl | rfl | rfl | rfl
    · exact ⟨48, by decide, by decide, by decide⟩
    · exact ⟨110, by decide, by decide, by decide⟩
    · exact ⟨114, by decide, by decide, by decide⟩
    · exact ⟨92, by decide, by decide, by decide⟩
    · exact ⟨39, by decide, by decide, by decide⟩
    · exact ⟨34, by decide, by decide, by decide⟩
    · exact ⟨90, by decide, by decide, by decide⟩
  · right
    simp only [List.mem_cons, List.not_mem_nil, or_false, not_or] at hplain
    simp [escapeByte, hplain, Sql.backslash, Sql.quote]

theorem escapeByte_length_le (byte : UInt8) : (escapeByte byte).length ≤ 2 := by
  rcases escapeByte_cases byte with ⟨sign, h, _⟩ | ⟨h, _⟩ <;> simp [h]

theorem zero_not_mem_escapeByte (byte : UInt8) : 0 ∉ escapeByte byte := by
  rcases escapeByte_cases byte with ⟨sign, h, hsign, _⟩ | ⟨h, hbyte, _⟩
  · rw [h]
    simp [Sql.backslash, hsign.symm]
  · rw [h]
    simp [hbyte.symm]

theorem zero_not_mem_escaped (str : Bytes) : 0 ∉ str.flatMap escapeByte := by
  intro h
  obtain ⟨byte, _, hbyte⟩ := List.mem_flatMap.mp h
  exact zero_not_mem_escapeByte byte hbyte

-- No NUL of the string is left, so nothing is cut off with the C string.
theorem escape_eq (str : Bytes) : escape str = str.flatMap escapeByte :=
  cString_append_nul (zero_not_mem_escaped str) []

theorem zero_not_mem_escape (str : Bytes) : 0 ∉ escape str := by
  rw [escape_eq]
  exact zero_not_mem_escaped str

theorem escaped_length_le (str : Bytes) :
    (mysql_real_escape_string str).length ≤ escapeBufferSize str := by
  have hbody : (str.flatMap escapeByte).length ≤ str.length * 2 := by
    induction str with
    | nil => rfl
    | cons byte str ih =>
        have hbyte := escapeByte_length_le byte
        rw [List.flatMap_cons, List.length_append, List.length_cons]
        omega
  simp only [mysql_real_escape_string, escapeBufferSize, List.length_append, List.length_singleton]
  omega

end Escape

section Decimal

theorem toDigits_ne_nil (n : ℕ) : toDigits n ≠ [] := by
  simp [toDigits, Nat.toDigits_ne_nil]

theorem toNat_of_mem_toDigits {n : ℕ} {c : Char} (h : c ∈ Nat.toDigits 10 n) :
    48 ≤ c.toNat ∧ c.toNat ≤ 57 := by
  have hdigit := Nat.isDigit_of_mem_toDigits (by decide) (by decide) h
  simpa [Char.isDigit, UInt32.le_iff_toNat_le] using hdigit

theorem isDigit_of_mem_toDigits {n : ℕ} {byte : UInt8} (h : byte ∈ toDigits n) :
    isDigit byte = true := by
  obtain ⟨c, hc, rfl⟩ := List.mem_map.mp h
  have hrange := toNat_of_mem_toDigits hc
  have hsize : c.toNat % 256 = c.toNat := Nat.mod_eq_of_lt (by omega)
  simp [isDigit, UInt8.le_iff_toNat_le, hsize, hrange]

theorem isSpace_of_isDigit {byte : UInt8} (h : isDigit byte = true) : isSpace byte = false := by
  have hlow : 48 ≤ byte.toNat := by
    simp only [isDigit, Bool.and_eq_true, decide_eq_true_eq, UInt8.le_iff_toNat_le] at h
    exact h.1
  have hblank : byte ≠ 32 := by
    rintro rfl
    exact absurd h (by decide)
  have hcontrol : ¬byte ≤ 13 := by
    rw [UInt8.le_iff_toNat_le, Nat.not_le]
    exact Nat.lt_of_lt_of_le (by decide) hlow
  simp [isSpace, hblank, hcontrol]

theorem isWordByte_of_mem_toDigits {n : ℕ} {byte : UInt8} (h : byte ∈ toDigits n) :
    Sql.isWordByte byte = true := by
  simp [Sql.isWordByte, isDigit_of_mem_toDigits h]

-- atoi reads back what std::to_string writes.
theorem digitsValue_toDigits (n : ℕ) : digitsValue (toDigits n) = n := by
  have hall : (toDigits n).takeWhile isDigit = toDigits n :=
    List.takeWhile_eq_self_iff.mpr fun byte hbyte => isDigit_of_mem_toDigits hbyte
  have hfold : ∀ (cs : List Char) (acc : ℕ), (∀ c ∈ cs, c.toNat < 256) →
      (cs.map fun c => UInt8.ofNat c.toNat).foldl (fun n digit => n * 10 + (digit.toNat - 48)) acc =
        Nat.ofDigitChars 10 cs acc := by
    intro cs acc hcs
    induction cs generalizing acc with
    | nil => rfl
    | cons c cs ih =>
        have hbyte : (UInt8.ofNat c.toNat).toNat = c.toNat := Nat.mod_eq_of_lt (hcs c (by simp))
        rw [List.map_cons, List.foldl_cons, ih _ fun d hd => hcs d (by simp [hd]), hbyte,
          Nat.ofDigitChars_cons, Nat.mul_comm]
        rfl
  rw [digitsValue, hall, toDigits, hfold, Nat.ofDigitChars_ten_toDigits]
  intro c hc
  exact Nat.lt_of_le_of_lt (toNat_of_mem_toDigits hc).2 (by decide)

theorem zero_not_mem_toDigits (n : ℕ) : 0 ∉ toDigits n := by
  intro h
  exact absurd (isDigit_of_mem_toDigits h) (by decide)

theorem zero_not_mem_toDecimal (n : ℤ) : 0 ∉ toDecimal n := by
  have hsign : (0 : UInt8) ∉ ascii "-" := by decide
  cases n with
  | ofNat n => exact zero_not_mem_toDigits n
  | negSucc n => simpa [toDecimal, hsign] using zero_not_mem_toDigits (n + 1)

end Decimal

namespace Sql

def keyword (text : String) : Token := .word (ascii text)

def sign (c : Char) : Token := .mark c.toUInt8

def minusTokens : ℤ → List Token
  | .ofNat _ => []
  | .negSucc _ => [sign '-']

def numberTokens (n : ℤ) : List Token := minusTokens n ++ [.word (toDigits n.natAbs)]

-- The statements that the DAOs are meant to make.

def insertUserTokens (username password : Bytes) : List Token :=
  [keyword "INSERT", keyword "INTO", keyword "users", sign '(', keyword "username", sign ',',
    keyword "password", sign ')', keyword "VALUES", sign '(', .string username, sign ',',
    .string password, sign ')']

def getUserByUsernameTokens (username : Bytes) : List Token :=
  [keyword "SELECT", keyword "id", sign ',', keyword "username", sign ',', keyword "password",
    keyword "FROM", keyword "users", keyword "WHERE", keyword "username", sign '=',
    .string username]

def saveMessageTokens (userId : ℤ) (content : Bytes) : List Token :=
  [keyword "INSERT", keyword "INTO", keyword "messages", sign '(', keyword "user_id", sign ',',
    keyword "content", sign ')', keyword "VALUES", sign '('] ++ numberTokens userId ++
    [sign ',', .string content, sign ')']

section Literals

-- Inside a literal an escaped byte is read back as the byte, whatever it is.
theorem reads_escapeByte (value : Bytes) (byte : UInt8) :
    Reads step (.quoted quote value) (escapeByte byte) [] (.quoted quote (value ++ [byte])) := by
  rcases escapeByte_cases byte with ⟨sign, h, _, hvalue⟩ | ⟨h, _, hbackslash, hquote⟩
  · have hopen : step (.quoted quote value) backslash = some (.escaped quote value, []) := by
      simp [step, backslash, quote]
    have hclose : step (.escaped quote value) sign =
        some (.quoted quote (value ++ [byte]), []) := by
      simp [step, hvalue]
    rw [h]
    exact .cons hopen (.cons hclose .nil)
  · have hcopy : step (.quoted quote value) byte = some (.quoted quote (value ++ [byte]), []) := by
      simp [step, hbackslash, hquote]
    rw [h]
    exact .cons hcopy .nil

theorem reads_escape (str : Bytes) :
    Reads step (.quoted quote []) (escape str) [] (.quoted quote str) := by
  rw [escape_eq]
  exact Reads.flatMap escapeByte (Mode.quoted quote)
    (fun done byte _ => reads_escapeByte done byte) []

theorem reads_between (value : Bytes) :
    Reads step (.quoted quote value) (ascii "', '") [.string value, sign ','] (.quoted quote []) := by
  have htext : ascii "', '" = [39, 44, 32, 39] := by decide
  rw [htext]
  rfl

theorem reads_last (value : Bytes) :
    Reads step (.quoted quote value) (ascii "')") [.string value, sign ')'] .blank := by
  have htext : ascii "')" = [39, 41] := by decide
  rw [htext]
  rfl

theorem reads_close (value : Bytes) :
    Reads step (.quoted quote value) (ascii "'") [] (.closing quote value) := by
  have htext : ascii "'" = [39] := by decide
  rw [htext]
  rfl

theorem reads_afterNumber (letters : Bytes) :
    Reads step (.word letters) (ascii ", '") [.word letters, sign ','] (.quoted quote []) := by
  have htext : ascii ", '" = [44, 32, 39] := by decide
  rw [htext]
  rfl

theorem reads_toDigits (n : ℕ) : Reads step .blank (toDigits n) [] (.word (toDigits n)) := by
  obtain ⟨digit, rest, hcons⟩ := List.exists_cons_of_ne_nil (toDigits_ne_nil n)
  have hword : ∀ byte ∈ digit :: rest, isWordByte byte = true := by
    rw [← hcons]
    exact fun byte hbyte => isWordByte_of_mem_toDigits hbyte
  have hdigit : isDigit digit = true := isDigit_of_mem_toDigits (by rw [hcons]; simp)
  have hfirst : step .blank digit = some (.word [digit], []) := by
    simp [step, begin, isSpace_of_isDigit hdigit, hword digit (by simp)]
  rw [hcons]
  exact .cons hfirst (reads_word (fun byte hbyte => hword byte (by simp [hbyte])) [digit])

theorem reads_toDecimal (n : ℤ) :
    Reads step .blank (toDecimal n) (minusTokens n) (.word (toDigits n.natAbs)) := by
  cases n with
  | ofNat n => exact reads_toDigits n
  | negSucc n =>
      have hminus : Reads step .blank (ascii "-") [sign '-'] .blank := by decide
      exact hminus.append (reads_toDigits (n + 1))

end Literals

section Statements

theorem lex_insertUser (username password : Bytes) :
    lex (DbConnection.insertUserSql username password) =
      some (insertUserTokens username password) := by
  have hstart : Reads step .blank (ascii "INSERT INTO users (username, password) VALUES ('")
      ((insertUserTokens username password).take 10) (.quoted quote []) := by
    have htake : (insertUserTokens username password).take 10 =
        (insertUserTokens [] []).take 10 := rfl
    rw [htake]
    decide
  have hread := (((hstart.append (reads_escape username)).append (reads_between username)).append
    (reads_escape password)).append (reads_last password)
  exact lex_of_reads hread rfl

theorem lex_getUserByUsername (username : Bytes) :
    lex (DbConnection.getUserByUsernameSql username) =
      some (getUserByUsernameTokens username) := by
  have hstart : Reads step .blank
      (ascii "SELECT id, username, password FROM users WHERE username = '")
      ((getUserByUsernameTokens username).take 11) (.quoted quote []) := by
    have htake : (getUserByUsernameTokens username).take 11 =
        (getUserByUsernameTokens []).take 11 := rfl
    rw [htake]
    decide
  have hread := (hstart.append (reads_escape username)).append (reads_close username)
  exact lex_of_reads hread rfl

theorem lex_saveMessage (userId : ℤ) (content : Bytes) :
    lex (DbConnection.saveMessageSql userId content) =
      some (saveMessageTokens userId content) := by
  have hstart : Reads step .blank (ascii "INSERT INTO messages (user_id, content) VALUES (")
      ((saveMessageTokens userId content).take 10) .blank := by
    have htake : (saveMessageTokens userId content).take 10 = (saveMessageTokens 0 []).take 10 :=
      rfl
    rw [htake]
    decide
  have hread := (((hstart.append (reads_toDecimal userId)).append (reads_afterNumber _)).append
    (reads_escape content)).append (reads_last content)
  have hlex := lex_of_reads hread rfl
  simpa [DbConnection.saveMessageSql, saveMessageTokens, numberTokens] using hlex

-- All of the text but the limit is fixed.
theorem lex_getRecentMessages (limit : ℤ) :
    ∃ tokens, lex (DbConnection.getRecentMessagesSql limit) =
      some (keyword "SELECT" :: tokens) := by
  have hfixed : (run step .blank (ascii "SELECT m.id, m.user_id, u.username, m.content, " ++
      ascii "DATE_FORMAT(m.timestamp, '%Y-%m-%d %H:%i:%s') as formatted_time " ++
      ascii "FROM messages m JOIN users u ON m.user_id = u.id " ++
      ascii "ORDER BY m.timestamp DESC LIMIT ")).map (fun read => (read.1, read.2.head?)) =
        some (.blank, some (keyword "SELECT")) := by decide +kernel
  obtain ⟨⟨mode, out⟩, hstart, hread⟩ := Option.map_eq_some_iff.mp hfixed
  obtain ⟨rfl, hhead⟩ := Prod.mk.inj hread
  obtain ⟨tokens, rfl⟩ : ∃ tokens, out = keyword "SELECT" :: tokens := by
    cases out with
    | nil => cases hhead
    | cons token tokens => exact ⟨tokens, by rw [Option.some.inj hhead]⟩
  have hlex := lex_of_reads (Reads.append hstart (reads_toDecimal limit)) rfl
  exact ⟨_, hlex⟩

theorem lex_heartBeat : lex (ascii "SELECT 1") = some [keyword "SELECT", keyword "1"] := by decide

-- No text has a NUL in it, so the C string that MySQL gets is the whole of it.

theorem cString_insertUserSql (username password : Bytes) :
    cString (DbConnection.insertUserSql username password) =
      DbConnection.insertUserSql username password := by
  apply cString_of_not_mem
  have htexts : (0 : UInt8) ∉ ascii "INSERT INTO users (username, password) VALUES ('" ∧
      (0 : UInt8) ∉ ascii "', '" ∧ (0 : UInt8) ∉ ascii "')" := by decide
  simp [DbConnection.insertUserSql, htexts, zero_not_mem_escape]

theorem cString_getUserByUsernameSql (username : Bytes) :
    cString (DbConnection.getUserByUsernameSql username) =
      DbConnection.getUserByUsernameSql username := by
  apply cString_of_not_mem
  have htexts : (0 : UInt8) ∉ ascii "SELECT id, username, password FROM users WHERE username = '" ∧
      (0 : UInt8) ∉ ascii "'" := by decide
  simp [DbConnection.getUserByUsernameSql, htexts, zero_not_mem_escape]

theorem cString_saveMessageSql (userId : ℤ) (content : Bytes) :
    cString (DbConnection.saveMessageSql userId content) =
      DbConnection.saveMessageSql userId content := by
  apply cString_of_not_mem
  have htexts : (0 : UInt8) ∉ ascii "INSERT INTO messages (user_id, content) VALUES (" ∧
      (0 : UInt8) ∉ ascii ", '" ∧ (0 : UInt8) ∉ ascii "')" := by decide
  simp [DbConnection.saveMessageSql, htexts, zero_not_mem_escape, zero_not_mem_toDecimal]

theorem cString_getRecentMessagesSql (limit : ℤ) :
    cString (DbConnection.getRecentMessagesSql limit) =
      DbConnection.getRecentMessagesSql limit := by
  apply cString_of_not_mem
  have htexts : (0 : UInt8) ∉ ascii "SELECT m.id, m.user_id, u.username, m.content, " ∧
      (0 : UInt8) ∉ ascii "DATE_FORMAT(m.timestamp, '%Y-%m-%d %H:%i:%s') as formatted_time " ∧
      (0 : UInt8) ∉ ascii "FROM messages m JOIN users u ON m.user_id = u.id " ∧
      (0 : UInt8) ∉ ascii "ORDER BY m.timestamp DESC LIMIT " := by decide
  simp [DbConnection.getRecentMessagesSql, htexts, zero_not_mem_toDecimal]

theorem cString_heartBeat : cString (ascii "SELECT 1") = ascii "SELECT 1" := by decide

-- Whatever the strings are, MySQL reads the intended statements with these strings as the
-- values of their literals, and escaping stays within its buffer and loses nothing.
theorem statements_intended (username password content : Bytes) (userId : ℤ) :
    lex (cString (DbConnection.insertUserSql username password)) =
        some (insertUserTokens username password) ∧
      lex (cString (DbConnection.getUserByUsernameSql username)) =
        some (getUserByUsernameTokens username) ∧
      lex (cString (DbConnection.saveMessageSql userId content)) =
        some (saveMessageTokens userId content) ∧
      ∀ str, (mysql_real_escape_string str).length ≤ escapeBufferSize str ∧
        escape str ++ [0] = mysql_real_escape_string str := by
  refine ⟨?_, ?_, ?_, fun str => ⟨escaped_length_le str, ?_⟩⟩
  · rw [cString_insertUserSql, lex_insertUser]
  · rw [cString_getUserByUsernameSql, lex_getUserByUsername]
  · rw [cString_saveMessageSql, lex_saveMessage]
  · rw [escape_eq, mysql_real_escape_string]

end Statements

end Sql

end MyTestserver
