import LedgerKit.Client.ConfigFile
import LedgerKit.Proofs.Hexadecimal
import LedgerKit.Proofs.TomlDocument
import Mathlib.Algebra.Group.Nat.Defs

/-!
# Configurations, written and read

The document of a configuration says its entries (`says_tomlChars`), and these amount to the
configuration again (`ofEntries?_entries`).

* `toToml_read_back` : a configuration is written if its number of nodes fits, and then it is what
  is read from its document.
-/

namespace LedgerKit

open Toml

/-- The entries that are written for a node. -/
def NodeEntry.entries (n : NodeEntry) : Entries :=
  [("address", .string n.address), ("account_id", .string n.accountId)]

theorem NodeEntry.ofToml?_entries (n : NodeEntry) :
    ofToml? (.table .header n.entries) = some n := rfl

theorem LogFormat.ofName?_name (f : LogFormat) : ofName? f.name = some f := by
  cases f <;> decide

namespace ClientConfig

variable (c : ClientConfig)

/-- The entry of the ledger, if there is one. -/
def ledgerEntries : Entries :=
  match c.ledgerId with
  | some l => [("ledger_id", .string l.toString)]
  | none => []

/-- The entry that says that there are no nodes. -/
def noNodesEntries : Entries := if c.nodes.isEmpty then [("nodes", .array [])] else []

/-- The entries that are written on a line of their own. -/
def lineEntries : Entries :=
  [("network", Value.string c.network)] ++ c.ledgerEntries ++ c.noNodesEntries
    ++ [("max_nodes_per_transaction", Value.integer c.maxNodes.toNat)]
    ++ [("log_format", Value.string c.logFormat.name)] ++ [("log_level", Value.string c.logLevel)]

/-- All that is written. -/
def entries : Entries :=
  c.lineEntries ++
    if c.nodes.map NodeEntry.entries = [] then []
    else [("nodes", Value.tables (c.nodes.map NodeEntry.entries))]

/-! ### What is written -/

theorem says_tomlTextLine {key : String} (hkey : isBare key = true) (text : String) :
    Says (tomlTextLine key text) [pairOf (key, .string text)] :=
  says_pair hkey (isReadAs_string text)

theorem says_tomlNode (n : NodeEntry) : Says (tomlNode n) (tableOf "nodes" n.entries) := by
  have hheader := says_emptyLine.append (says_tables (by decide : isBare "nodes" = true))
  exact (hheader.append (says_tomlTextLine (by decide) n.address)).append
    (says_tomlTextLine (by decide) n.accountId)

theorem says_ledger : Says (match c.ledgerId with
    | some l => tomlTextLine "ledger_id" l.toString
    | none => []) (c.ledgerEntries.map pairOf) := by
  unfold ledgerEntries
  split
  · exact says_tomlTextLine (by decide) _
  · exact says_nil

theorem says_noNodes : Says (if c.nodes.isEmpty then tomlLine "nodes" ['[', ']'] else [])
    (c.noNodesEntries.map pairOf) := by
  unfold noNodesEntries
  split
  · exact says_pair (by decide) isReadAs_noElements
  · exact says_nil

/-- The document of a configuration says its entries. -/
theorem says_tomlChars (h : c.maxNodes.toNat < Int64.size / 2) :
    Says c.tomlChars (c.lineEntries.map pairOf ++
      (c.nodes.map NodeEntry.entries).flatMap (tableOf "nodes")) := by
  have hmax : Says (tomlLine "max_nodes_per_transaction" (Nat.toDigits 10 c.maxNodes.toNat))
      [pairOf ("max_nodes_per_transaction", .integer c.maxNodes.toNat)] :=
    says_pair (by decide) (isReadAs_integer h)
  have hnetwork := says_tomlTextLine (by decide : isBare "network" = true) c.network
  have hformat := says_tomlTextLine (by decide : isBare "log_format" = true) c.logFormat.name
  have hlevel := says_tomlTextLine (by decide : isBare "log_level" = true) c.logLevel
  have hnodes := Says.flatMap fun n (_ : n ∈ c.nodes) => says_tomlNode n
  have hall := hnetwork.append c.says_ledger |>.append c.says_noNodes |>.append hmax
    |>.append hformat |>.append hlevel |>.append hnodes
  simp only [lineEntries, List.map_append, List.flatMap_map]
  exact hall

/-! ### What is read -/

theorem nodup_entries : (c.entries.map Prod.fst).Nodup := by
  unfold entries lineEntries ledgerEntries noNodesEntries
  cases c.ledgerId <;> cases c.nodes <;> simp

theorem nodup_lineEntries : (c.lineEntries.map Prod.fst).Nodup := by
  have h := c.nodup_entries
  rw [entries, List.map_append] at h
  exact (List.nodup_append.1 h).1

theorem lookup_lineEntries (h : c.nodes.map NodeEntry.entries ≠ []) :
    c.lineEntries.lookup "nodes" = none := by
  have hnodup := c.nodup_entries
  rw [entries, if_neg h] at hnodup
  exact lookup_eq_none_of_nodup hnodup

theorem mapM_ofToml? (nodes : List NodeEntry) :
    ((nodes.map NodeEntry.entries).map (Value.table .header)).mapM NodeEntry.ofToml?
      = some nodes := by
  rw [List.map_map]
  exact mapM_map_eq_some NodeEntry.ofToml?_entries nodes

/-- There is an entry for the nodes in any case, and they are its elements. -/
theorem exists_nodes_mem : ∃ v vs, ("nodes", v) ∈ c.entries ∧ v.elements? = some vs ∧
    vs.mapM NodeEntry.ofToml? = some c.nodes := by
  cases h : c.nodes with
  | nil => exact ⟨.array [], [], by simp [entries, lineEntries, noNodesEntries, h], rfl, rfl⟩
  | cons n nodes =>
    exact ⟨.tables ((n :: nodes).map NodeEntry.entries), _, by simp [entries, h], rfl,
      mapM_ofToml? _⟩

theorem lookup_ledger :
    c.entries.lookup "ledger_id" = c.ledgerId.map fun l => .string l.toString := by
  cases h : c.ledgerId with
  | none =>
    rw [Option.map_none, List.lookup_eq_none_iff, entries, lineEntries, ledgerEntries,
      noNodesEntries, h]
    cases c.nodes <;> simp
  | some l =>
    have hmem : ("ledger_id", .string l.toString) ∈ c.entries := by
      simp [entries, lineEntries, ledgerEntries, h]
    exact lookup_of_mem c.nodup_entries hmem

/-- The entries of a configuration amount to it. -/
theorem ofEntries?_entries : ofEntries? c.entries = some c := by
  obtain ⟨v, vs, hmem, helements, hmap⟩ := c.exists_nodes_mem
  have hnodes := lookup_of_mem c.nodup_entries hmem
  have hline : ∀ e ∈ c.lineEntries, c.entries.lookup e.1 = some e.2 :=
    fun e he => lookup_of_mem c.nodup_entries (List.mem_append_left _ he)
  have hnetwork := hline ("network", .string c.network) (by simp [lineEntries])
  have hmax := hline ("max_nodes_per_transaction", .integer c.maxNodes.toNat)
    (by simp [lineEntries])
  have hformat := hline ("log_format", .string c.logFormat.name) (by simp [lineEntries])
  have hlevel := hline ("log_level", .string c.logLevel) (by simp [lineEntries])
  have hname : LogFormat.ofToml? (.string c.logFormat.name) = some c.logFormat :=
    c.logFormat.ofName?_name
  -- the ledger's text is the only one that has to be understood
  cases h : c.ledgerId <;>
    simp [ofEntries?, Entries.getOr, hnetwork, c.lookup_ledger, h, hnodes, hmax, hformat, hlevel,
      helements, hname, hmap, Value.text?, Value.count?, LedgerId.parse_toString,
      Except.toOption] <;>
    rw [← h]

/-! ### Written and read -/

theorem ofToml_tomlChars (h : c.maxNodes.toNat < Int64.size / 2) :
    ofToml (String.ofList c.tomlChars) = .ok c := by
  have hrows : ∀ row ∈ c.nodes.map NodeEntry.entries, (row.map Prod.fst).Nodup := by
    simp [NodeEntry.entries]
  -- the document begins with the first letter of a key
  have hmark : c.tomlChars.head? ≠ some '\ufeff' := by
    simp [tomlChars, tomlTextLine, tomlLine]
  have hparse : parse? (String.ofList c.tomlChars) = some c.entries :=
    parse?_of_says c.nodup_lineEntries hrows c.lookup_lineEntries (c.says_tomlChars h) hmark
  simp [ofToml, hparse, c.ofEntries?_entries]

/-- **A configuration is written, and is what is read from its document, if the number of nodes for
a transaction has 63 bits; otherwise it is not written.** -/
theorem toToml_read_back :
    (c.maxNodes.toNat ≤ 2 ^ 63 - 1 ↔ ∃ text, c.toToml = .ok text ∧ ofToml text = .ok c) ∧
    (2 ^ 63 - 1 < c.maxNodes.toNat ↔ c.toToml = .error .malformedConfig) := by
  have hsize : Int64.size / 2 = 2 ^ 63 := rfl
  by_cases h : c.maxNodes.toNat < Int64.size / 2
  · have hwrite : c.toToml = .ok (String.ofList c.tomlChars) := if_pos h
    exact ⟨iff_of_true (by omega) ⟨_, hwrite, c.ofToml_tomlChars h⟩,
      iff_of_false (by omega) (by simp [hwrite])⟩
  · have hwrite : c.toToml = .error .malformedConfig := if_neg h
    exact ⟨iff_of_false (by omega) (by simp [hwrite]), iff_of_true (by omega) hwrite⟩

end ClientConfig

end LedgerKit
