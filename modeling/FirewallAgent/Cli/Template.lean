/-!
The configuration that is written for operators to start from.
-/
namespace FirewallAgent.Cli

def templateLines : List String :=
  [
    "# Gatekeeper client configuration",
    "#",
    "# Discovery order: --config flag, GATEKEEPER_CONFIG_PATH,",
    "# ./gatekeeper.yaml, /etc/gatekeeper/config.yaml",
    "",
    "# Policy service endpoint and the installation code provisioned for this host",
    "server_addr: \"policy.example.net:50051\"",
    "installation_code: \"REPLACE-ME\"",
    "",
    "# Connect over TLS. server_cert_path pins a CA; without it the bundled",
    "# web PKI roots are trusted.",
    "tls: true",
    "# server_cert_path: /etc/gatekeeper/ca.pem",
    "",
    "# Decision applied when the service answers UNKNOWN or cannot be reached",
    "default_policy: deny",
    "",
    "connect_timeout: 10s",
    "rpc_timeout: 5s",
    "token_timeout: 5s",
    "reconnect_backoff: 5s",
    "",
    "connection_cache_capacity: 1024",
    "",
    "# Shared by every proxy worker on the host",
    "credential_store_path: /var/lib/gatekeeper/credentials.conf",
    "credential_lock_name: /gatekeeper-credentials",
    "",
    "# Overrides discovery from /sys/class/dmi/id/product_uuid and /etc/machine-id",
    "# device_uuid: 00000000-0000-0000-0000-000000000000"
  ]

def template : String := String.join (templateLines.map (· ++ "\n"))

end FirewallAgent.Cli
