import SgxActivation.Proofs.Json.Decoder
import SgxActivation.Report

/-!
# Reports read back

A report in print loses nothing, whatever characters its message is made of.

* `Report.toJson_injective` — the members tell the report;
* **`Report.decode_toText`** — a reader of JSON finds in the text the seven members and nothing
  else, each with its value, so that the text tells the report too.
-/

namespace SgxActivation.Report

open Json

/-- The members of a report tell what the run came to: whether there is a status tells failures
from the rest, and the mark of the enable tells a request that was gone through with from one that
was found in place. -/
theorem toJson_injective {report other : Report} (h : other.toJson = report.toJson) :
    other = report := by
  obtain ⟨support, conclusion⟩ := report
  obtain ⟨otherSupport, otherConclusion⟩ := other
  simp only [toJson, object.injEq, List.cons.injEq, Prod.mk.injEq, bool.injEq, text.injEq,
    true_and, and_true] at h
  obtain ⟨hstatus, -, ⟨hsupported, hactive⟩, hperformed, hmessage, hcode, -⟩ := h
  have hsupport : otherSupport = support := by
    cases otherSupport
    cases support
    simp_all
  subst hsupport
  congr 1
  cases conclusion with
  | settled status =>
    cases otherConclusion with
    | settled otherStatus => exact congrArg _ (Status.name_inj.1 (text.inj hstatus))
    | requested => cases hperformed
    | failed otherKind otherMessage => cases hstatus
  | requested =>
    cases otherConclusion with
    | settled otherStatus => cases hperformed
    | requested => rfl
    | failed otherKind otherMessage => cases hstatus
  | failed kind message =>
    cases otherConclusion with
    | settled otherStatus => cases hstatus
    | requested => cases hstatus
    | failed otherKind otherMessage =>
      obtain rfl := Failure.Kind.code_inj.1 (Int.ofNat.inj (number.inj hcode))
      exact congrArg _ hmessage

/-- Read as JSON, the text of a report is as a whole one object of seven members in this order. The
status stands there by its name, the processor as an object of two truth values, and what a report
does not have is null. No other report has this text. -/
theorem decode_toText (report : Report) :
    decode report.toText = some (.object
      [("status", (report.status?.map fun status => text status.name).getD null),
      ("status_code", (report.statusCode?.map fun code => number code).getD null),
      ("cpu", .object
        [("supported", .bool report.support.supported), ("active", .bool report.support.active)]),
      ("enable_performed", .bool report.enablePerformed),
      ("message", text report.message),
      ("error_code", (report.errorCode?.map fun code => number code).getD null),
      ("exit_code", number report.exitCode)]) ∧
    ∀ other : Report, other.toText = report.toText → other = report := by
  have hback (report : Report) : decode report.toText = some report.toJson :=
    decode_toPretty report.toJson
  have hnumber (n : Option Nat) : (n.map fun code => number code).getD null = numberOrNull n := by
    cases n <;> rfl
  constructor
  · rw [hback, toJson, hnumber, hnumber]
    cases report.status? <;> rfl
  · intro other htext
    have hjson : some other.toJson = some report.toJson := by rw [← hback, ← hback, htext]
    exact toJson_injective (Option.some.inj hjson)

end SgxActivation.Report
