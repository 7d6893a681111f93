import FraudAnalyzer.Python.Text

/-!
# What the SQL guard lets through

The lists of `app/policy/sql_allowlist.py`.
-/

namespace FraudAnalyzer.Policy

/-- Reserved words that may never appear in a read-only query. -/
def forbiddenKeywords : List String :=
  ["INSERT", "UPDATE", "DELETE", "DROP", "ALTER", "CREATE", "TRUNCATE", "GRANT", "REVOKE", "INTO",
    "ATTACH", "DETACH", "EXEC", "EXECUTE", "VACUUM", "REINDEX", "UPSERT"]

/-- Words typed as a plain name that are never legitimate in a read query. -/
def forbiddenNames : List String := ["outfile", "dumpfile", "pragma"]

def postgresFunctions : List String :=
  ["set_config", "pg_read_file", "pg_read_binary_file", "pg_ls_dir", "pg_stat_file",
    "pg_ls_logdir", "pg_ls_waldir", "pg_ls_tmpdir", "pg_ls_archive_statusdir", "pg_logdir_ls",
    "pg_sleep", "pg_sleep_for", "pg_sleep_until", "pg_advisory_lock", "pg_advisory_xact_lock",
    "lo_import", "lo_export", "lo_get", "lo_put", "lo_from_bytea", "lo_unlink", "lo_open",
    "lo_read", "lo_write", "loread", "lowrite", "dblink", "dblink_exec", "dblink_connect",
    "dblink_connect_u", "dblink_send_query", "dblink_fetch", "dblink_open", "dblink_close",
    "query_to_xml", "query_to_xmlschema", "query_to_xml_and_xmlschema", "nextval", "setval",
    "pg_terminate_backend", "pg_cancel_backend", "pg_reload_conf", "pg_rotate_logfile",
    "pg_promote", "pg_switch_wal", "pg_switch_xlog", "pg_create_restore_point",
    "pg_start_backup", "pg_stop_backup", "pg_backup_start", "pg_backup_stop",
    "pg_drop_replication_slot", "pg_create_physical_replication_slot",
    "pg_create_logical_replication_slot", "pg_stat_reset", "pg_stat_reset_shared", "pg_notify"]

def mysqlFunctions : List String :=
  ["load_file", "benchmark", "sleep", "get_lock", "release_lock", "release_all_locks",
    "master_pos_wait", "source_pos_wait", "sys_exec", "sys_eval"]

def sqliteFunctions : List String :=
  ["readfile", "writefile", "load_extension", "edit", "fts3_tokenizer", "zipfile",
    "sqlar_compress", "sqlar_uncompress"]

def forbiddenFunctions : List String := postgresFunctions ++ mysqlFunctions ++ sqliteFunctions

/-- Statement types allowed to lead a query. -/
def allowedStatementTypes : List String := ["SELECT"]

/-- Words that make a read a locking one when they follow `FOR`. -/
def forbiddenLockingWords : List String := ["SHARE"]

/-- `validate_policy`: keywords are upper case, names lower case, and none is blank. -/
def validatePolicy (u : Python.Unicode) : Bool :=
  (forbiddenKeywords ++ forbiddenLockingWords ++ allowedStatementTypes).all
      (fun word => word = u.upper word && Python.strip u word ≠ "") &&
    (forbiddenNames ++ forbiddenFunctions).all
      (fun name => name = u.lower name && Python.strip u name ≠ "")

-- the lists pass the check made at import
example : validatePolicy .ascii = true := by decide +kernel

end FraudAnalyzer.Policy
