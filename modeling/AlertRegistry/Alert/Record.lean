import AlertRegistry.Alert.Tuple
import AlertRegistry.Record

/-!
# Alerts as records

Side-records are kept beside the rows of alerts and are cleared with them.
-/

namespace AlertRegistry

instance : Record Alert AlertRow AlertColumn where
  entity := .alert
  id a := a.id
  toRow := AlertRow.ofAlert
  ofRow := AlertRow.toAlert
  key r := r.id
  version r := r.version
  withVersion r n := { r with version := n }
  stamps r := (r.createdAt, r.updatedAt)
  table db := db.alerts
  versionColumn := .version
  readRow := AlertRow.read
  filter := AlertRow.filter
  search := AlertRow.search
  insert := AlertRow.insert
  replace := AlertRow.replace
  writeBeside := some AlertRow.writeSide
  clearBeside := some (Database.deleteSides fun _ => true)
  clear := Database.deleteAlerts fun _ => true
  describe := Query.debugAlert
  reportsQueries := true

end AlertRegistry
